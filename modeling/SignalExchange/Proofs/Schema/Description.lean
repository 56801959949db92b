import SignalExchange.Proofs.Schema.FieldType
import SignalExchange.Proofs.Schema.Flags

/-! Which schemas can be offered on the command line.

A schema is judged by the names of all its fields, by every part of their types and by their
defaults. Of an accepted schema each editable field is offered once, under a flag of its own.
-/

set_option autoImplicit false

namespace SignalExchange

namespace FieldType

/-- The type itself, or a type below it at any depth. -/
def PartOf (part : FieldType) : FieldType → Prop
  | .optional inner => part = .optional inner ∨ part.PartOf inner
  | .list items => part = .list items ∨ part.PartOf items
  | type => part = type

theorem PartOf.self (type : FieldType) : type.PartOf type := by
  cases type <;> simp [PartOf]

/-- No optional is a part of what another optional holds. -/
def SingleOptionals (type : FieldType) : Prop :=
  ∀ outer inner, (optional outer).PartOf type → ¬(optional inner).PartOf outer

/-- Every choice among the parts has members, and names none of them twice. -/
def ProperChoices (type : FieldType) : Prop :=
  ∀ among, (choice among).PartOf type → among.members ≠ [] ∧ among.members.Nodup

theorem singleOptionals_optional_iff {inner : FieldType} :
    (optional inner).SingleOptionals ↔
      inner.SingleOptionals ∧ ∀ other, ¬(optional other).PartOf inner := by
  constructor
  · intro single
    refine ⟨fun outer other below => single outer other (.inr below), fun other => ?_⟩
    exact single inner other (.self _)
  · rintro ⟨single, apart⟩ outer other (same | below)
    · cases same
      exact apart other
    · exact absurd below (apart outer)

/-- Inside an optional a type may have no optional as a part. -/
theorem wellFormed_eq_ok {field : String} {inside : Bool} {type : FieldType} :
    type.wellFormed field inside = .ok () ↔ type.SingleOptionals ∧ type.ProperChoices ∧
      (inside = true → ∀ inner, ¬(optional inner).PartOf type) := by
  -- The mark for the inside of an optional is set on the way down, so it is general.
  induction type generalizing inside with
  | text => simp [wellFormed, SingleOptionals, ProperChoices, PartOf]
  | integer => simp [wellFormed, SingleOptionals, ProperChoices, PartOf]
  | number => simp [wellFormed, SingleOptionals, ProperChoices, PartOf]
  | boolean => simp [wellFormed, SingleOptionals, ProperChoices, PartOf]
  | choice among =>
    by_cases none : among.members = []
    · simp [wellFormed, none, SingleOptionals, ProperChoices, PartOf]
    · by_cases distinct : among.members.Nodup <;>
        simp [wellFormed, none, distinct, SingleOptionals, ProperChoices, PartOf]
  | optional inner ih =>
    cases inside with
    | true =>
      refine iff_of_false (by simp [wellFormed]) ?_
      rintro ⟨-, -, apart⟩
      exact apart rfl inner (.self _)
    | false =>
      have choices : (optional inner).ProperChoices ↔ inner.ProperChoices := by
        simp [ProperChoices, PartOf]
      simp [wellFormed, ih, singleOptionals_optional_iff, choices, and_comm, and_left_comm]
  | list items ih =>
    have single : (list items).SingleOptionals ↔ items.SingleOptionals := by
      simp [SingleOptionals, PartOf]
    have choices : (list items).ProperChoices ↔ items.ProperChoices := by
      simp [ProperChoices, PartOf]
    simp [wellFormed, ih, single, choices, PartOf]

/-- A list between two optionals does not separate them. -/
example : (optional (.list (.optional .text))).wellFormed "labels" false =
    .error (.nestedOptional "labels") := rfl

end FieldType

theorem isFieldName_iff {name : String} : isFieldName name = true ↔ ∃ first rest,
    name.toList = first :: rest ∧ ('a' ≤ first ∧ first ≤ 'z') ∧
      ∀ c ∈ rest, ('a' ≤ c ∧ c ≤ 'z') ∨ ('0' ≤ c ∧ c ≤ '9') ∨ c = '_' := by
  unfold isFieldName
  cases name.toList with
  | nil => simp
  | cons first rest => simp [isLowercase, isNamePart, or_assoc]

namespace Field

theorem defaultFits_eq_ok {field : Field} :
    field.defaultFits = .ok () ↔
      ∀ value, field.default = some value → field.type.Accepts value := by
  unfold defaultFits FieldType.Accepts
  cases field.default with
  | none => simp
  | some value => simp [Except.mapError_eq_ok]

theorem accepted_iff {field : Field} : field.Accepted ↔ isFieldName field.name = true ∧
    (field.type.SingleOptionals ∧ field.type.ProperChoices) ∧
      ∀ value, field.default = some value → field.type.Accepts value := by
  constructor
  · intro accepted
    obtain ⟨single, choices, -⟩ := FieldType.wellFormed_eq_ok.1 accepted.typed
    exact ⟨accepted.named, ⟨single, choices⟩, defaultFits_eq_ok.1 accepted.default⟩
  · rintro ⟨named, ⟨single, choices⟩, fits⟩
    exact ⟨named, FieldType.wellFormed_eq_ok.2 ⟨single, choices, nofun⟩,
      defaultFits_eq_ok.2 fits⟩

end Field

namespace Schema

/-- What the author of a schema has to observe. -/
structure Describable (schema : Schema) : Prop where
  /-- A small letter, then small letters, digits and underscores. -/
  named : ∀ field ∈ schema.fields, ∃ first rest, field.name.toList = first :: rest ∧
    ('a' ≤ first ∧ first ≤ 'z') ∧
      ∀ c ∈ rest, ('a' ≤ c ∧ c ≤ 'z') ∨ ('0' ≤ c ∧ c ≤ '9') ∨ c = '_'
  distinct : (schema.fields.map (·.name)).Nodup
  optionals : ∀ field ∈ schema.fields, field.type.SingleOptionals
  choices : ∀ field ∈ schema.fields, field.type.ProperChoices
  defaults : ∀ field ∈ schema.fields, ∀ value, field.default = some value →
    field.type.Accepts value

theorem exists_editableFields_iff {schema : Schema} :
    (∃ fields, schema.editableFields = .ok fields) ↔ schema.Describable := by
  simp only [editableFields_eq_ok, Field.accepted_iff, isFieldName_iff]
  constructor
  · rintro ⟨fields, accepted, distinct, -⟩
    exact ⟨fun field member => (accepted field member).1, distinct,
      fun field member => (accepted field member).2.1.1,
      fun field member => (accepted field member).2.1.2,
      fun field member => (accepted field member).2.2⟩
  · intro describable
    refine ⟨_, fun field member => ?_, describable.distinct, rfl⟩
    exact ⟨describable.named field member,
      ⟨describable.optionals field member, describable.choices field member⟩,
      describable.defaults field member⟩

/-- Flags differ because the names do, and a name can be told from its flag. -/
theorem flags_distinct {schema : Schema} {fields : List EditableField}
    (described : schema.editableFields = .ok fields) : (fields.map (·.flag)).Nodup := by
  obtain ⟨accepted, distinct, rfl⟩ := editableFields_eq_ok.1 described
  have names : ((schema.fields.filter (·.editable)).map (·.name)).Nodup :=
    distinct.sublist (List.filter_sublist.map _)
  have flags : ((schema.fields.filter (·.editable)).map Field.toEditable).map (·.flag) =
      ((schema.fields.filter (·.editable)).map (·.name)).map flagName := by
    rw [List.map_map, List.map_map]
    rfl
  rw [flags]
  exact nodup_map_flagName names (List.forall_mem_map.2 fun field member =>
    (accepted field (List.mem_of_mem_filter member)).named)

end Schema

structure Field.Offers (field : Field) (offered : EditableField) : Prop where
  name : offered.name = field.name
  type : offered.type = field.type
  default : offered.default = field.default
  required : offered.isRequired = true ↔ field.default = none

/-- A schema is accepted exactly when its author observed the rules. Then every editable field is
offered once, in the order of their declaration, none of them is one of the common fields, and no
two have the same flag. -/
theorem editableFields_iff_describable (api : String) (own : List Field) :
    ((∃ fields, (Schema.ofFields api own).editableFields = .ok fields) ↔
      (Schema.ofFields api own).Describable) ∧
    ∀ fields, (Schema.ofFields api own).editableFields = .ok fields →
      List.Forall₂ Field.Offers ((Schema.ofFields api own).fields.filter (·.editable)) fields ∧
      (∀ field ∈ fields, field.name ∉ ["name", "api", "enabled"]) ∧
      (fields.map (·.flag)).Nodup := by
  refine ⟨Schema.exists_editableFields_iff, fun fields described => ?_⟩
  refine ⟨?_, (Schema.editable_names described).2, Schema.flags_distinct described⟩
  obtain ⟨-, -, rfl⟩ := Schema.editableFields_eq_ok.1 described
  rw [List.forall₂_map_right_iff, List.forall₂_same]
  intro field _
  exact ⟨rfl, rfl, rfl, Option.isNone_iff_eq_none⟩

/-- Fields of several types, one of which is not for the command line. -/
def colourFields : List Field :=
  [{ name := "depth_2", type := .integer },
   { name := "colours", type := .optional (.list (.choice ⟨"Colour", ["red", "blue"]⟩)),
     default := some .null },
   { name := "revision", type := .integer, editable := false },
   { name := "shown", type := .boolean, default := some (.boolean true) }]

theorem colourFields_described : ∃ fields,
    (Schema.ofFields "paint" colourFields).editableFields = .ok fields ∧
    (Schema.ofFields "paint" colourFields).Describable ∧
    fields.map (·.flag) = ["depth-2", "colours", "shown"] ∧ (fields.map (·.flag)).Nodup := by
  have described : (Schema.ofFields "paint" colourFields).editableFields =
      .ok ((colourFields.filter (·.editable)).map Field.toEditable) := rfl
  obtain ⟨accepted, offered⟩ := editableFields_iff_describable "paint" colourFields
  exact ⟨_, described, accepted.1 ⟨_, described⟩, by decide, (offered _ described).2.2⟩

end SignalExchange
