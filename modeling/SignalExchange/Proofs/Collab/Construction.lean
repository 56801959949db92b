import SignalExchange.Proofs.Collab.Overlay
import SignalExchange.Proofs.Collab.Verdict

/-! What a new record is made of.

A field takes the value that it is given, or else its default. So a record is made when all values
are acceptable and no field is missing, whatever the order in which the values were given.
-/

set_option autoImplicit false

namespace SignalExchange

namespace Collab

/-- A field that has to be given and is not. -/
def lacks (edit : EditSet) (field : Field) : Bool :=
  field.name ≠ "name" && field.name ≠ "api" && field.default.isNone &&
    (edit.get? field.name).isNone

/-- The first such field in the order of the schema. -/
def missing? (schema : Schema) (edit : EditSet) : Option Field :=
  schema.fields.find? (lacks edit)

/-- All that is given can be used for a new record of the name. -/
structure Acceptable (schema : Schema) (edit : EditSet) (name : String) : Prop where
  known : ∀ key ∈ edit.keys, ∃ field, schema.find? key = some field
  named : edit.get? "name" = some (.string name)
  nonempty : name ≠ ""
  bound : ∀ value, edit.get? "api" = some value → value = .string schema.api
  fits : ∀ field ∈ schema.fields, field.name ≠ "name" → field.name ≠ "api" →
    ∀ value, edit.get? field.name = some value → field.type.Accepts value

/-- The value that is given to a field, or else its default. -/
def valueOf (edit : EditSet) (field : Field) : Option Json :=
  (edit.get? field.name).or field.default

/-- The values of the fields that are not common to all exchanges. -/
def ownValues (schema : Schema) (edit : EditSet) : List (String × Json) :=
  schema.ownFields.filterMap fun field =>
    (valueOf edit field).map fun value => (field.name, value)

def newRecord (schema : Schema) (edit : EditSet) (name : String) : Collab where
  name := name
  api := schema.api
  enabled := enabledAfter true (edit.get? "enabled")
  attributes := .ofList (ownValues schema edit)

def blank (schema : Schema) (name : String) : Collab := ⟨name, schema.api, true, .empty⟩

theorem blank_formed (schema : Schema) (name : String) : (blank schema name).Formed :=
  fun _ member => nomatch member

theorem mem_ownValues {schema : Schema} {edit : EditSet} {key : String} {value : Json} :
    (key, value) ∈ ownValues schema edit ↔
      ∃ field ∈ schema.fields, field.name ∉ commonNames ∧ field.name = key ∧
        valueOf edit field = some value := by
  simp only [ownValues, Schema.ownFields, List.mem_filterMap, List.mem_filter, decide_eq_true_eq,
    Option.map_eq_some_iff, Prod.mk.injEq]
  constructor
  · rintro ⟨field, ⟨member, own⟩, _, given, rfl, rfl⟩
    exact ⟨field, member, own, rfl, given⟩
  · rintro ⟨field, member, own, rfl, given⟩
    exact ⟨field, ⟨member, own⟩, value, given, rfl, rfl⟩

theorem nodup_keys_ownValues {schema : Schema} (distinct : (schema.fields.map (·.name)).Nodup)
    (edit : EditSet) : ((ownValues schema edit).map (·.1)).Nodup := by
  have names : (schema.ownFields.map (·.name)).Nodup :=
    distinct.sublist (List.filter_sublist.map _)
  rw [List.Nodup, List.pairwise_map, ownValues, List.pairwise_filterMap]
  refine (List.pairwise_map.1 names).imp fun apart => ?_
  intro first left second right
  obtain ⟨_, -, rfl⟩ := Option.map_eq_some_iff.1 left
  obtain ⟨_, -, rfl⟩ := Option.map_eq_some_iff.1 right
  exact apart

theorem newRecord_formed (schema : Schema) (edit : EditSet) (name : String) :
    (newRecord schema edit name).Formed := by
  intro entry member
  have found := (Ascending.find?_eq_some_iff (Ascending.ofList_ascending _) _ _).2 member
  rw [EditSet.find?_ofList] at found
  obtain ⟨_, -, own, same, -⟩ := mem_ownValues.1 (List.mem_reverse.1 (EditSet.mem_of_lookup found))
  exact same ▸ own

theorem attribute?_newRecord {schema : Schema} (distinct : (schema.fields.map (·.name)).Nodup)
    (edit : EditSet) (name key : String) :
    (newRecord schema edit name).attribute? key =
      EditSet.lookup key (ownValues schema edit) := by
  rw [attribute?, newRecord, AscendingMap.find?, AscendingMap.ofList, EditSet.find?_ofList,
    EditSet.lookup_reverse (nodup_keys_ownValues distinct edit)]

/-! Values to start with -/

/-- The value that a field starts with, if it is not missing. -/
def startingValue (schema : Schema) (edit : EditSet) (field : Field) : Json :=
  (valueOf edit field).getD (.string schema.api)

def startingValues (schema : Schema) (edit : EditSet) (fields : List Field) :
    List (String × Json) :=
  fields.map fun field => (field.name, startingValue schema edit field)

section

variable {schema : Schema} {edit : EditSet} {field : Field}

theorem initialValue_of_lacks (lacking : lacks edit field = true) :
    initialValue schema edit field = .error (.missingField field.name) := by
  simp only [lacks, Bool.and_eq_true, decide_eq_true_eq, Option.isNone_iff_eq_none] at lacking
  obtain ⟨⟨⟨-, notApi⟩, noDefault⟩, notGiven⟩ := lacking
  simp [initialValue, noDefault, notGiven, notApi]

theorem initialValue_of_present (notName : field.name ≠ "name")
    (present : lacks edit field = false) :
    initialValue schema edit field = .ok (startingValue schema edit field) := by
  rw [initialValue, startingValue, valueOf]
  cases given : edit.get? field.name with
  | some value => rfl
  | none =>
    cases default : field.default with
    | some value => rfl
    | none =>
      have isApi : field.name = "api" := by simpa [lacks, notName, default, given] using present
      simp [isApi]

theorem valueOf_of_present (own : field.name ∉ commonNames) (present : lacks edit field = false) :
    valueOf edit field = some (startingValue schema edit field) := by
  have names : field.name ≠ "name" ∧ field.name ≠ "api" ∧ field.name ≠ "enabled" := by
    simpa [commonNames, commonFields] using own
  rw [startingValue, valueOf]
  cases given : edit.get? field.name with
  | some value => rfl
  | none =>
    cases default : field.default with
    | some value => rfl
    | none => simp [lacks, names.1, names.2.1, default, given] at present

theorem mem_startingValues {fields : List Field} {key : String} {value : Json} :
    (key, value) ∈ startingValues schema edit fields ↔
      ∃ field ∈ fields, field.name = key ∧ startingValue schema edit field = value := by
  simp [startingValues]

theorem nodup_keys_startingValues (distinct : (schema.fields.map (·.name)).Nodup)
    {fields : List Field} (within : fields.Sublist schema.fields) :
    ((startingValues schema edit fields).map (·.1)).Nodup := by
  rw [startingValues, List.map_map]
  exact distinct.sublist (within.map _)

theorem present_of_complete (complete : missing? schema edit = none) :
    ∀ field ∈ schema.fields, lacks edit field = false :=
  fun field member => Bool.eq_false_iff.2 (List.find?_eq_none.1 complete field member)

theorem foldlM_startField {fields : List Field} (apart : ∀ field ∈ fields, field.name ≠ "name")
    (present : ∀ field ∈ fields, lacks edit field = false) (collab : Collab) :
    fields.foldlM (startField schema edit) collab =
      collab.assignAll schema ⟨startingValues schema edit fields⟩ := by
  induction fields generalizing collab with
  | nil => rfl
  | cons field rest ih =>
    rw [List.forall_mem_cons] at apart present
    have starts : startField schema edit collab field =
        collab.assign schema field.name (startingValue schema edit field) := by
      rw [startField, initialValue_of_present apart.1 present.1, Except.ok_bind]
    rw [List.foldlM_cons, starts]
    exact bind_congr fun middle => ih apart.2 present.2 middle

theorem construct_of_known (known : ∀ key ∈ edit.keys, ∃ field, schema.find? key = some field)
    {name : String} (named : newName edit = .ok name) :
    construct schema edit =
      (schema.fields.filter fun field => field.name ≠ "name").foldlM (startField schema edit)
        (blank schema name) := by
  rw [construct, unknown?_eq_none_iff.2 known, named]
  rfl

end

section

variable {api : String} {own : List Field} {edit : EditSet} {name : String}

theorem startFields_kept {fields : List Field} {before after : Collab}
    (started : fields.foldlM (startField (Schema.ofFields api own) edit) before = .ok after) :
    Kept before after :=
  Except.foldlM_preserves (fun _ _ _ kept step => kept.trans (startField_kept step))
    (.refl before) started

theorem given_of_startFields {fields : List Field} {before after : Collab}
    (started : fields.foldlM (startField (Schema.ofFields api own) edit) before = .ok after) :
    ∀ field ∈ fields, lacks edit field = false ∧
      ∀ value, edit.get? field.name = some value → before.Agrees (field.name, value) := by
  have brings (middle : Collab) (field : Field) (next : Collab)
      (step : startField (Schema.ofFields api own) edit middle field = .ok next) :
      lacks edit field = false ∧
        ∀ value, edit.get? field.name = some value → next.Agrees (field.name, value) := by
    obtain ⟨start, initial, assigned⟩ := Except.bind_eq_ok.1 step
    constructor
    · refine Bool.eq_false_iff.2 fun lacking => ?_
      rw [initialValue_of_lacks lacking] at initial
      cases initial
    · intro value given
      rw [initialValue, given] at initial
      cases initial
      exact ((assign_kept assigned).agrees_iff _).2 (agrees_of_assign assigned)
  -- What one step brings about the later ones keep, since they keep the name and the exchange.
  have each := Except.foldlM_establishes brings
    (fun field _ _ _ holds step => ⟨holds.1, fun value given =>
      ((startField_kept step).agrees_iff _).2 (holds.2 value given)⟩) started
  intro field member
  obtain ⟨present, agrees⟩ := each field member
  exact ⟨present, fun value given =>
    ((startFields_kept started).agrees_iff _).1 (agrees value given)⟩

variable {fields : List EditableField}
  (described : (Schema.ofFields api own).editableFields = .ok fields)

include described

theorem startingValue_api (acceptable : Acceptable (Schema.ofFields api own) edit name)
    {field : Field} (member : field ∈ (Schema.ofFields api own).fields)
    (isApi : field.name = "api") :
    startingValue (Schema.ofFields api own) edit field = .string api := by
  obtain ⟨-, distinct, -⟩ := Schema.editableFields_eq_ok.1 described
  have found := (Schema.find?_eq_some_iff distinct).2 ⟨member, isApi⟩
  cases found
  rw [startingValue, valueOf]
  cases given : edit.get? "api" with
  | some value => simp [acceptable.bound value given, Schema.ofFields]
  | none => rfl

theorem takes_startingValue (acceptable : Acceptable (Schema.ofFields api own) edit name)
    {field : Field} (member : field ∈ (Schema.ofFields api own).fields)
    (notName : field.name ≠ "name") (present : lacks edit field = false) :
    (Schema.ofFields api own).Takes
      (field.name, startingValue (Schema.ofFields api own) edit field) := by
  obtain ⟨accepted, distinct, -⟩ := Schema.editableFields_eq_ok.1 described
  by_cases isApi : field.name = "api"
  · rw [startingValue_api described acceptable member isApi]
    exact EditArgs.takes_text (.inr isApi) api
  · refine ⟨field, (Schema.find?_eq_some_iff distinct).2 ⟨member, rfl⟩, ?_⟩
    rw [startingValue, valueOf]
    cases given : edit.get? field.name with
    | some value => exact acceptable.fits field member notName isApi value given
    | none =>
      cases default : field.default with
      | some value =>
        have fits := (accepted field member).default
        rw [Field.defaultFits, default] at fits
        exact Except.mapError_eq_ok.1 fits
      | none => simp [lacks, notName, isApi, default, given] at present

theorem startFields (acceptable : Acceptable (Schema.ofFields api own) edit name)
    {some : List Field} (within : some.Sublist (Schema.ofFields api own).fields)
    (present : ∀ field ∈ some, lacks edit field = false) :
    ∃ collab, (some.filter fun field => field.name ≠ "name").foldlM
        (startField (Schema.ofFields api own) edit) (blank (Schema.ofFields api own) name) =
          .ok collab ∧
      Overlaid (blank (Schema.ofFields api own) name)
        (startingValues (Schema.ofFields api own) edit
          (some.filter fun field => field.name ≠ "name")) collab := by
  obtain ⟨-, distinct, -⟩ := Schema.editableFields_eq_ok.1 described
  have apart : ∀ field ∈ some.filter fun field => field.name ≠ "name", field.name ≠ "name" :=
    fun field member => by simpa using (List.mem_filter.1 member).2
  have still : ∀ field ∈ some.filter fun field => field.name ≠ "name",
      lacks edit field = false :=
    fun field member => present field (List.mem_of_mem_filter member)
  have inFields : ∀ field ∈ some.filter fun field => field.name ≠ "name",
      field ∈ (Schema.ofFields api own).fields :=
    fun field member => within.subset (List.mem_of_mem_filter member)
  -- No field is missing, so starting them is assigning them the values that they start with.
  rw [foldlM_startField apart still]
  refine assignAll_of_takes
    (nodup_keys_startingValues distinct (List.filter_sublist.trans within)) ?_ ?_
  · intro entry member
    obtain ⟨field, inSome, rfl⟩ := List.mem_map.1 member
    exact takes_startingValue described acceptable (inFields field inSome) (apart field inSome)
      (still field inSome)
  · intro entry member
    obtain ⟨field, inSome, rfl⟩ := List.mem_map.1 member
    exact ⟨fun isName => absurd isName (apart field inSome),
      startingValue_api described acceptable (inFields field inSome)⟩

theorem newRecord_overlaid (complete : missing? (Schema.ofFields api own) edit = none) :
    Overlaid (blank (Schema.ofFields api own) name)
      (startingValues (Schema.ofFields api own) edit
        ((Schema.ofFields api own).fields.filter fun field => field.name ≠ "name"))
      (newRecord (Schema.ofFields api own) edit name) := by
  obtain ⟨-, distinct, -⟩ := Schema.editableFields_eq_ok.1 described
  have assigned := @nodup_keys_startingValues _ edit distinct
    ((Schema.ofFields api own).fields.filter fun field => field.name ≠ "name")
    List.filter_sublist
  have present := present_of_complete complete
  refine ⟨⟨rfl, rfl, fun _ => newRecord_formed _ _ _⟩, ?_, fun key notCommon => ?_⟩
  -- The common field has a default, so it is always started.
  · have started : EditSet.lookup "enabled" (startingValues (Schema.ofFields api own) edit
        ((Schema.ofFields api own).fields.filter fun field => field.name ≠ "name")) =
        some ((edit.get? "enabled").getD (.boolean true)) := by
      refine (EditSet.lookup_eq_some_iff assigned).2 (mem_startingValues.2 ?_)
      refine ⟨⟨"enabled", .boolean, some (.boolean true), false, none, none⟩, ?_, rfl, ?_⟩
      · simp [Schema.ofFields, commonFields]
      · cases given : edit.get? "enabled" <;> simp [startingValue, valueOf, given]
    rw [started, newRecord, blank]
    cases edit.get? "enabled" <;> rfl
  · have before : (blank (Schema.ofFields api own) name).attribute? key = none := rfl
    rw [attribute?_newRecord distinct, before, Option.or_none]
    apply Option.ext
    intro value
    rw [EditSet.lookup_eq_some_iff (nodup_keys_ownValues distinct edit),
      EditSet.lookup_eq_some_iff assigned, mem_ownValues, mem_startingValues]
    constructor
    · rintro ⟨field, member, own, rfl, given⟩
      have notName : field.name ≠ "name" := fun same => own (same ▸ by decide)
      refine ⟨field, List.mem_filter.2 ⟨member, decide_eq_true notName⟩, rfl, ?_⟩
      rw [valueOf_of_present own (present field member)] at given
      exact Option.some.inj given
    · rintro ⟨field, member, rfl, rfl⟩
      have inFields := List.mem_of_mem_filter member
      exact ⟨field, inFields, notCommon, rfl,
        valueOf_of_present notCommon (present field inFields)⟩

theorem construct_of_acceptable (acceptable : Acceptable (Schema.ofFields api own) edit name)
    (complete : missing? (Schema.ofFields api own) edit = none) :
    construct (Schema.ofFields api own) edit =
      .ok (newRecord (Schema.ofFields api own) edit name) := by
  have named := newName_eq_ok.2 ⟨acceptable.named, acceptable.nonempty⟩
  obtain ⟨collab, started, laid⟩ := startFields described acceptable (List.Sublist.refl _)
    (present_of_complete complete)
  rw [construct_of_known acceptable.known named, started]
  exact congrArg _ (laid.unique (blank_formed _ name) (newRecord_overlaid described complete)
    fun _ _ => rfl)

/-- Fields before the missing one are assigned, and that one stops the construction. -/
theorem construct_of_missing (acceptable : Acceptable (Schema.ofFields api own) edit name)
    {field : Field} (missing : missing? (Schema.ofFields api own) edit = some field) :
    construct (Schema.ofFields api own) edit = .error (.missingField field.name) := by
  have named := newName_eq_ok.2 ⟨acceptable.named, acceptable.nonempty⟩
  obtain ⟨lacking, before, after, split, present⟩ := List.find?_eq_some_iff_append.1 missing
  have notName : field.name ≠ "name" := by
    simp only [lacks, Bool.and_eq_true, decide_eq_true_eq] at lacking
    exact lacking.1.1.1
  obtain ⟨collab, started, -⟩ := startFields described acceptable
    (split ▸ List.sublist_append_left before (field :: after))
    fun field member => by simpa using present field member
  rw [construct_of_known acceptable.known named, split, List.filter_append, List.foldlM_append,
    started, Except.ok_bind, List.filter_cons, if_pos (by simpa using notName), List.foldlM_cons,
    startField, initialValue_of_lacks lacking]
  rfl

theorem acceptable_of_construct {collab : Collab}
    (constructed : construct (Schema.ofFields api own) edit = .ok collab) :
    ∃ name, Acceptable (Schema.ofFields api own) edit name ∧
      missing? (Schema.ofFields api own) edit = none := by
  obtain ⟨-, distinct, -⟩ := Schema.editableFields_eq_ok.1 described
  obtain ⟨known, name, named, fields⟩ := construct_eq_ok.1 constructed
  obtain ⟨given, nonempty⟩ := newName_eq_ok.1 named
  have started (field : Field) (member : field ∈ (Schema.ofFields api own).fields)
      (notName : field.name ≠ "name") :=
    given_of_startFields fields field (List.mem_filter.2 ⟨member, decide_eq_true notName⟩)
  refine ⟨name, ⟨known, given, nonempty, fun value given => ?_, ?_⟩, ?_⟩
  · have common : (⟨"api", .text, none, false, none, none⟩ : Field) ∈
        (Schema.ofFields api own).fields := by simp [Schema.ofFields, commonFields]
    exact ((started _ common (by decide)).2 value given).2 rfl
  · exact fun field member notName _ value given => Schema.accepts_of_takes distinct member
      (takes_of_construct constructed given notName)
  · refine List.find?_eq_none.2 fun field member lacking => ?_
    by_cases isName : field.name = "name"
    · simp [lacks, isName] at lacking
    · rw [(started field member isName).1] at lacking
      cases lacking

/-- A record is made exactly when everything that is given can be used and no field is missing.
The values decide it, not their order. Where only fields are missing, the first one is reported. -/
theorem construct_iff_acceptable (edit : EditSet) :
    (∀ collab, construct (Schema.ofFields api own) edit = .ok collab ↔
      ∃ name, Acceptable (Schema.ofFields api own) edit name ∧
        missing? (Schema.ofFields api own) edit = none ∧
        collab = newRecord (Schema.ofFields api own) edit name) ∧
    (∀ collab, construct (Schema.ofFields api own) edit = .ok collab →
      edit.keys.Nodup → ∀ other : EditSet, other.entries.Perm edit.entries →
        construct (Schema.ofFields api own) other = .ok collab) ∧
    ∀ name field, Acceptable (Schema.ofFields api own) edit name →
      missing? (Schema.ofFields api own) edit = some field →
      construct (Schema.ofFields api own) edit = .error (.missingField field.name) := by
  refine ⟨fun collab => ⟨fun constructed => ?_, ?_⟩, ?_, ?_⟩
  · obtain ⟨name, acceptable, complete⟩ := acceptable_of_construct described constructed
    rw [construct_of_acceptable described acceptable complete] at constructed
    exact ⟨name, acceptable, complete, (Except.ok.inj constructed).symm⟩
  · rintro ⟨name, acceptable, complete, rfl⟩
    exact construct_of_acceptable described acceptable complete
  · intro collab constructed distinct other reordered
    have known := (construct_eq_ok.1 constructed).1
    have knownStill : ∀ key ∈ other.keys,
        ∃ field, (Schema.ofFields api own).find? key = some field :=
      fun key member => known key ((reordered.map _).mem_iff.1 member)
    rw [construct_congr (EditSet.get?_of_perm distinct reordered) knownStill known]
    exact constructed
  · exact fun name field acceptable missing => construct_of_missing described acceptable missing

end

/-- A field that has to be given, one with a default, and one that no flag can set. -/
def ownedFields : List Field :=
  [{ name := "priority", type := .integer },
   { name := "note", type := .text, default := some (.string "-") },
   { name := "owner", type := .text, editable := false }]

/-- A record that is made in two orders, and one that lacks two fields. -/
theorem construct_owned :
    construct (.ofFields "demo" ownedFields)
        ⟨[("owner", .string "o"), ("name", .string "c"), ("priority", .integer 1)]⟩ =
      .ok ⟨"c", "demo", true,
        .ofList [("note", .string "-"), ("owner", .string "o"), ("priority", .integer 1)]⟩ ∧
    construct (.ofFields "demo" ownedFields)
        ⟨[("name", .string "c"), ("priority", .integer 1), ("owner", .string "o")]⟩ =
      .ok ⟨"c", "demo", true,
        .ofList [("note", .string "-"), ("owner", .string "o"), ("priority", .integer 1)]⟩ ∧
    construct (.ofFields "demo" ownedFields) ⟨[("name", .string "c"), ("api", .string "demo")]⟩ =
      .error (.missingField "priority") := by
  have described : (Schema.ofFields "demo" ownedFields).editableFields =
      .ok ((ownedFields.filter (·.editable)).map Field.toEditable) := rfl
  have whole : Acceptable (.ofFields "demo" ownedFields)
      ⟨[("owner", .string "o"), ("name", .string "c"), ("priority", .integer 1)]⟩ "c" := by
    refine ⟨?_, rfl, by decide, nofun, ?_⟩
    · simp [EditSet.keys, Schema.find?, Schema.ofFields, commonFields, ownedFields]
    · simp [Schema.ofFields, commonFields, ownedFields, EditSet.get?, EditSet.lookup,
        FieldType.Accepts, FieldType.check, Integer.InRange, Integer.least, Integer.greatest]
  have bare : Acceptable (.ofFields "demo" ownedFields)
      ⟨[("name", .string "c"), ("api", .string "demo")]⟩ "c" := by
    refine ⟨?_, rfl, by decide, ?_, ?_⟩
    · simp [EditSet.keys, Schema.find?, Schema.ofFields, commonFields]
    · simp [EditSet.get?, EditSet.lookup, Schema.ofFields]
    · simp [Schema.ofFields, commonFields, ownedFields, EditSet.get?, EditSet.lookup]
  obtain ⟨made, reordered, -⟩ := construct_iff_acceptable described
    ⟨[("owner", .string "o"), ("name", .string "c"), ("priority", .integer 1)]⟩
  obtain ⟨-, -, lacking⟩ := construct_iff_acceptable described
    ⟨[("name", .string "c"), ("api", .string "demo")]⟩
  have first := (made _).2 ⟨"c", whole, rfl, rfl⟩
  exact ⟨first, reordered _ first (by decide) _ (List.perm_append_singleton _ [_, _]),
    lacking "c" _ bare rfl⟩

end Collab

end SignalExchange
