import Mathlib.Data.List.Nodup
import SignalExchange.Proofs.Except
import SignalExchange.Schema.Editable

/-! Schemas that are accepted.

A schema is accepted when its field names are well written and stand once, its types are well
formed, and its defaults have their types. So the fields of an exchange are apart from the common
ones, and every editable field has a type that can be read from the command line.
-/

set_option autoImplicit false

namespace SignalExchange

theorem find?_of_distinct {α : Type} {name : α → String} {items : List α}
    (distinct : (items.map name).Nodup) {item : α} (member : item ∈ items) :
    items.find? (fun other => name other = name item) = some item := by
  cases found : items.find? fun other => name other = name item with
  | none =>
    have missing := List.find?_eq_none.1 found item member
    exact absurd (decide_eq_true rfl) missing
  | some other =>
    have same : name other = name item := by simpa using List.find?_some found
    rw [List.inj_on_of_nodup_map distinct (List.mem_of_find?_eq_some found) member same]

theorem mem_commonNames {key : String} :
    key ∈ commonNames ↔ key = "name" ∨ key = "api" ∨ key = "enabled" := by
  simp [commonNames, commonFields]

namespace FieldType

/-- No optional stands right inside another. -/
theorem required_ne_optional {type : FieldType} {field : String} {inside : Bool}
    (formed : type.wellFormed field inside = .ok ()) (inner : FieldType) :
    type.required ≠ .optional inner := by
  rintro same
  cases type with
  | optional outer =>
    cases inside with
    | true => cases formed
    | false =>
      change outer = .optional inner at same
      subst same
      cases formed
  | _ => cases same

theorem items_wellFormed {type items : FieldType} {field : String} {inside : Bool}
    (formed : type.wellFormed field inside = .ok ()) (list : type.required = .list items) :
    ∃ inside, items.wellFormed field inside = .ok () := by
  cases type with
  | list others =>
    cases list
    exact ⟨inside, by simpa only [wellFormed] using formed⟩
  | optional inner =>
    change inner = .list items at list
    subst list
    cases inside with
    | true => cases formed
    | false => exact ⟨true, by simpa only [wellFormed] using formed⟩
  | _ => cases list

end FieldType

namespace Field

/-- The field is accepted wherever its name has not been used. -/
structure Accepted (field : Field) : Prop where
  named : isFieldName field.name = true
  typed : field.type.wellFormed field.name false = .ok ()
  default : field.defaultFits = .ok ()

theorem wellFormed_eq_ok {field : Field} {earlier : List String} :
    field.wellFormed earlier = .ok () ↔ field.Accepted ∧ field.name ∉ earlier := by
  unfold wellFormed
  by_cases named : isFieldName field.name = true
  · by_cases old : field.name ∈ earlier
    · simp [named, old]
    · simp only [named, old, Bool.not_true, Bool.false_eq_true, if_false, Except.bind_eq_ok,
        not_false_eq_true, and_true]
      constructor
      · rintro ⟨_, typed, default⟩
        exact ⟨named, typed, default⟩
      · rintro ⟨-, typed, default⟩
        exact ⟨(), typed, default⟩
  · refine iff_of_false (by simp [named]) fun accepted => named accepted.1.named

end Field

namespace Schema

theorem fieldsWellFormed_eq_ok {earlier : List String} {fields : List Field} :
    fieldsWellFormed earlier fields = .ok () ↔ (∀ field ∈ fields, field.Accepted) ∧
      (fields.map (·.name)).Nodup ∧ ∀ field ∈ fields, field.name ∉ earlier := by
  induction fields generalizing earlier with
  | nil => simp [fieldsWellFormed]
  | cons field rest ih =>
    rw [fieldsWellFormed, Except.bind_eq_ok, List.forall_mem_cons, List.forall_mem_cons,
      List.map_cons, List.nodup_cons]
    constructor
    · rintro ⟨_, here, there⟩
      obtain ⟨accepted, fresh⟩ := Field.wellFormed_eq_ok.1 here
      obtain ⟨others, distinct, apart⟩ := ih.1 there
      refine ⟨⟨accepted, others⟩, ⟨fun again => ?_, distinct⟩, fresh, fun other member old =>
        apart other member (List.mem_cons_of_mem _ old)⟩
      obtain ⟨other, member, same⟩ := List.mem_map.1 again
      exact apart other member (same ▸ List.mem_cons_self)
    · rintro ⟨⟨accepted, others⟩, ⟨once, distinct⟩, fresh, apart⟩
      refine ⟨(), Field.wellFormed_eq_ok.2 ⟨accepted, fresh⟩, ih.2 ⟨others, distinct, ?_⟩⟩
      rintro other member old
      rcases List.mem_cons.1 old with same | old
      · exact once (List.mem_map.2 ⟨other, member, same⟩)
      · exact apart other member old

theorem editableFields_eq_ok {schema : Schema} {fields : List EditableField} :
    schema.editableFields = .ok fields ↔ (∀ field ∈ schema.fields, field.Accepted) ∧
      (schema.fields.map (·.name)).Nodup ∧
      fields = (schema.fields.filter (·.editable)).map Field.toEditable := by
  have formed : schema.wellFormed = .ok () ↔ (∀ field ∈ schema.fields, field.Accepted) ∧
      (schema.fields.map (·.name)).Nodup := by
    simp [wellFormed, fieldsWellFormed_eq_ok]
  unfold editableFields
  rw [Except.bind_eq_ok]
  constructor
  · rintro ⟨_, accepted, same⟩
    cases same
    exact ⟨(formed.1 accepted).1, (formed.1 accepted).2, rfl⟩
  · rintro ⟨accepted, distinct, rfl⟩
    exact ⟨(), formed.2 ⟨accepted, distinct⟩, rfl⟩

theorem find?_eq_some_iff {schema : Schema} (distinct : (schema.fields.map (·.name)).Nodup)
    {name : String} {field : Field} :
    schema.find? name = some field ↔ field ∈ schema.fields ∧ field.name = name := by
  constructor
  · intro found
    exact ⟨List.mem_of_find?_eq_some found, by simpa using List.find?_some found⟩
  · rintro ⟨member, rfl⟩
    exact find?_of_distinct distinct member

theorem find?_of_editable {schema : Schema} {fields : List EditableField}
    (described : schema.editableFields = .ok fields) {field : EditableField}
    (member : field ∈ fields) : ∃ declared, schema.find? field.name = some declared ∧
      declared.type = field.type ∧ declared.Accepted := by
  obtain ⟨accepted, distinct, rfl⟩ := editableFields_eq_ok.1 described
  obtain ⟨declared, editable, rfl⟩ := List.mem_map.1 member
  have inFields := List.mem_of_mem_filter editable
  exact ⟨declared, (find?_eq_some_iff distinct).2 ⟨inFields, rfl⟩, rfl, accepted _ inFields⟩

section

variable {api : String} {own : List Field}
  (distinct : ((ofFields api own).fields.map (·.name)).Nodup)

include distinct

theorem name_notMem_commonNames : ∀ field ∈ own, field.name ∉ commonNames := by
  intro field member common
  rw [ofFields, List.map_append] at distinct
  exact (List.disjoint_of_nodup_append distinct) common (List.mem_map_of_mem member)

theorem own_distinct : (own.map (·.name)).Nodup := by
  rw [ofFields, List.map_append] at distinct
  exact distinct.of_append_right

end

theorem editable_names {api : String} {own : List Field} {fields : List EditableField}
    (described : (ofFields api own).editableFields = .ok fields) :
    (fields.map (·.name)).Nodup ∧ ∀ field ∈ fields, field.name ∉ commonNames := by
  obtain ⟨-, distinct, rfl⟩ := editableFields_eq_ok.1 described
  -- None of the common fields is editable, so only those of the exchange are left.
  have editable : (ofFields api own).fields.filter (·.editable) = own.filter (·.editable) := rfl
  rw [editable, List.map_map]
  refine ⟨(own_distinct distinct).sublist (List.filter_sublist.map _), fun field member => ?_⟩
  obtain ⟨declared, inOwn, rfl⟩ := List.mem_map.1 member
  exact name_notMem_commonNames distinct declared (List.mem_of_mem_filter inOwn)

end Schema

end SignalExchange
