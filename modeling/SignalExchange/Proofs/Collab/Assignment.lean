import SignalExchange.Proofs.Collab.Text
import SignalExchange.Proofs.Schema.FieldType

/-! What assignments do to a record.

Under a schema that starts with the common fields, an assignment keeps the name and the exchange
of a record, and its attributes stay apart from the common fields.
-/

set_option autoImplicit false

namespace SignalExchange

namespace Collab

theorem put_own (collab : Collab) {field : String} (own : field ∉ commonNames) (value : Json) :
    collab.put field value =
      .ok { collab with attributes := collab.attributes.insert field value } := by
  unfold put
  split
  · exact absurd (by decide) own
  · exact absurd (by decide) own
  · exact absurd (by decide) own
  · rfl

theorem name_of_put {collab after : Collab} {field : String} {value : Json}
    (put : collab.put field value = .ok after) : after.name = collab.name := by
  unfold Collab.put at put
  split at put
  · split at put <;> cases put
    rfl
  · split at put <;> cases put
    rfl
  · cases put
    rfl
  · cases put
    rfl

theorem name_of_assign {schema : Schema} {collab after : Collab} {field : String} {value : Json}
    (assigned : collab.assign schema field value = .ok after) : after.name = collab.name := by
  unfold assign at assigned
  split at assigned
  next => cases assigned
  next =>
    obtain ⟨_, -, put⟩ := Except.bind_eq_ok.1 assigned
    exact name_of_put put

theorem name_of_assignAll {schema : Schema} {collab after : Collab} {edit : EditSet}
    (assigned : collab.assignAll schema edit = .ok after) : after.name = collab.name :=
  Except.foldlM_preserves (P := fun kept => kept.name = collab.name)
    (fun _ _ _ same step => (name_of_assign step).trans same) rfl assigned

theorem assign_eq_invalidValue_iff (collab : Collab) {schema : Schema} {field : String}
    {declared : Field} (found : schema.find? field = some declared)
    (own : field ∉ commonNames) (value : Json) :
    (∃ message, collab.assign schema field value = .error (.invalidValue field message)) ↔
      ¬declared.type.Accepts value := by
  rw [assign, found, FieldType.Accepts]
  cases checked : declared.type.check value with
  | ok done => simp [checked, put_own collab own]
  | error mismatch => simp [checked, ConfigError.ofMismatch]

/-- The record is still the same one, and as well formed as before. -/
structure Kept (before after : Collab) : Prop where
  name : after.name = before.name
  api : after.api = before.api
  formed : before.Formed → after.Formed

theorem Kept.refl (collab : Collab) : Kept collab collab := ⟨rfl, rfl, id⟩

theorem Kept.trans {first second third : Collab} (before : Kept first second)
    (after : Kept second third) : Kept first third :=
  ⟨after.name.trans before.name, after.api.trans before.api,
    fun formed => after.formed (before.formed formed)⟩

theorem kept_enabled (collab : Collab) (enabled : Bool) :
    Kept collab { collab with enabled := enabled } :=
  ⟨rfl, rfl, id⟩

theorem kept_attribute (collab : Collab) {field : String} (own : field ∉ commonNames)
    (value : Json) :
    Kept collab { collab with attributes := collab.attributes.insert field value } := by
  refine ⟨rfl, rfl, fun formed entry member => ?_⟩
  rcases Ascending.mem_insert member with rfl | inAttributes
  · exact own
  · exact formed entry inAttributes

/-- A value has the type of the common field that it is put into. -/
structure Typed (field : String) (value : Json) : Prop where
  name : field = "name" → ∃ word, value = .string word
  api : field = "api" → ∃ word, value = .string word
  enabled : field = "enabled" → ∃ flag, value = .boolean flag

theorem put_cases {collab after : Collab} {field : String} {value : Json}
    (typed : Typed field value) (put : collab.put field value = .ok after) :
    (field ∈ commonNames ∧ ∃ enabled, after = { collab with enabled := enabled }) ∨
      (field ∉ commonNames ∧
        after = { collab with attributes := collab.attributes.insert field value }) := by
  unfold Collab.put at put
  split at put
  next word =>
    split at put
    · cases put
      exact .inl ⟨by decide, collab.enabled, rfl⟩
    · cases put
  next word =>
    split at put
    · cases put
      exact .inl ⟨by decide, collab.enabled, rfl⟩
    · cases put
  next flag =>
    cases put
    exact .inl ⟨by decide, flag, rfl⟩
  next notName notApi notEnabled =>
    -- A common field would have come to one of the cases above, for its value has the right type.
    cases put
    refine .inr ⟨fun common => ?_, rfl⟩
    have names : field = "name" ∨ field = "api" ∨ field = "enabled" := by
      simpa [commonNames, commonFields] using common
    rcases names with same | same | same
    · obtain ⟨word, text⟩ := typed.name same
      exact notName word same text
    · obtain ⟨word, text⟩ := typed.api same
      exact notApi word same text
    · obtain ⟨flag, boolean⟩ := typed.enabled same
      exact notEnabled flag same boolean

theorem typed_of_accepts {api : String} {own : List Field} {field : String} {declared : Field}
    {value : Json} (found : (Schema.ofFields api own).find? field = some declared)
    (fits : declared.type.Accepts value) : Typed field value := by
  -- The common fields stand before those of the schema itself, so they are found first.
  constructor
  · rintro rfl
    cases found
    exact FieldType.text_accepts_iff.1 fits
  · rintro rfl
    cases found
    exact FieldType.text_accepts_iff.1 fits
  · rintro rfl
    cases found
    exact FieldType.boolean_accepts_iff.1 fits

theorem assign_cases {api : String} {own : List Field} {collab after : Collab} {field : String}
    {value : Json} (assigned : collab.assign (Schema.ofFields api own) field value = .ok after) :
    ∃ declared, (Schema.ofFields api own).find? field = some declared ∧
      declared.type.Accepts value ∧
      ((field ∈ commonNames ∧ ∃ enabled, after = { collab with enabled := enabled }) ∨
        (field ∉ commonNames ∧ after =
          { collab with attributes := collab.attributes.insert field value })) := by
  unfold assign at assigned
  split at assigned
  next => cases assigned
  next declared found =>
    obtain ⟨_, checked, put⟩ := Except.bind_eq_ok.1 assigned
    have fits : declared.type.Accepts value := Except.mapError_eq_ok.1 checked
    exact ⟨declared, found, fits, put_cases (typed_of_accepts found fits) put⟩

theorem assign_kept {api : String} {own : List Field} {collab after : Collab} {field : String}
    {value : Json} (assigned : collab.assign (Schema.ofFields api own) field value = .ok after) :
    Kept collab after := by
  obtain ⟨_, -, -, ⟨-, enabled, rfl⟩ | ⟨own, rfl⟩⟩ := assign_cases assigned
  · exact kept_enabled collab enabled
  · exact kept_attribute collab own value

theorem assignAll_kept {api : String} {own : List Field} {collab after : Collab} {edit : EditSet}
    (assigned : collab.assignAll (Schema.ofFields api own) edit = .ok after) : Kept collab after :=
  Except.foldlM_preserves (fun _ _ _ before step => before.trans (assign_kept step))
    (.refl collab) assigned

theorem ne_empty_of_newName {edit : EditSet} {name : String} (named : newName edit = .ok name) :
    name ≠ "" := by
  unfold newName at named
  split at named
  · split at named
    · cases named
    next given =>
      cases named
      exact given
  · cases named
  · cases named

theorem unknown?_eq_none_iff {schema : Schema} {edit : EditSet} :
    edit.keys.find? (fun key => (schema.find? key).isNone) = none ↔
      ∀ key ∈ edit.keys, ∃ field, schema.find? key = some field := by
  simp [List.find?_eq_none, Option.ne_none_iff_exists']

theorem construct_eq_ok {schema : Schema} {edit : EditSet} {collab : Collab} :
    construct schema edit = .ok collab ↔
      (∀ key ∈ edit.keys, ∃ field, schema.find? key = some field) ∧
      ∃ name, newName edit = .ok name ∧
        (schema.fields.filter fun field => field.name ≠ "name").foldlM (startField schema edit)
          ⟨name, schema.api, true, .empty⟩ = .ok collab := by
  unfold construct
  cases unknown : edit.keys.find? fun key => (schema.find? key).isNone with
  | some key =>
    have absent := List.find?_some unknown
    refine iff_of_false (fun failed => nomatch failed) fun done => ?_
    obtain ⟨field, found⟩ := done.1 key (List.mem_of_find?_eq_some unknown)
    simp [found] at absent
  | none =>
    constructor
    · intro constructed
      obtain ⟨name, named, fields⟩ := Except.bind_eq_ok.1 constructed
      exact ⟨unknown?_eq_none_iff.1 unknown, name, named, fields⟩
    · rintro ⟨-, name, named, fields⟩
      exact Except.bind_eq_ok.2 ⟨name, named, fields⟩

theorem construct_cases {schema : Schema} {edit : EditSet} {collab : Collab}
    (constructed : construct schema edit = .ok collab) : ∃ name, name ≠ "" ∧
      (schema.fields.filter fun field => field.name ≠ "name").foldlM (startField schema edit)
        ⟨name, schema.api, true, .empty⟩ = .ok collab := by
  obtain ⟨-, name, named, fields⟩ := construct_eq_ok.1 constructed
  exact ⟨name, ne_empty_of_newName named, fields⟩

theorem assign_of_startField {schema : Schema} {edit : EditSet} {collab after : Collab}
    {field : Field} (started : startField schema edit collab field = .ok after) :
    ∃ value, collab.assign schema field.name value = .ok after := by
  obtain ⟨value, -, assigned⟩ := Except.bind_eq_ok.1 started
  exact ⟨value, assigned⟩

theorem startField_kept {api : String} {own : List Field} {edit : EditSet}
    {collab after : Collab} {field : Field}
    (started : startField (Schema.ofFields api own) edit collab field = .ok after) :
    Kept collab after := by
  obtain ⟨value, assigned⟩ := assign_of_startField started
  exact assign_kept assigned

theorem construct_formed {api : String} {own : List Field} {edit : EditSet} {collab : Collab}
    (constructed : construct (Schema.ofFields api own) edit = .ok collab) : collab.Formed := by
  obtain ⟨name, -, fields⟩ := construct_cases constructed
  have empty : Formed ⟨name, api, true, .empty⟩ := fun _ member => nomatch member
  exact Except.foldlM_preserves
    (fun _ _ _ formed started => (startField_kept started).formed formed) empty fields

end Collab

end SignalExchange
