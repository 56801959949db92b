import SignalExchange.Proofs.Collab.Assignment
import SignalExchange.Proofs.Schema.WellFormed

/-! Records that conform to a schema.

A new record has a value for every field of its schema, and assignments to a record write only to
fields that it has. So a record conforms from its construction on.
-/

set_option autoImplicit false

namespace SignalExchange

namespace Collab

/-- Every attribute is a field of the exchange itself, and has a value of its type. -/
structure Fits (schema : Schema) (collab : Collab) : Prop where
  own : ∀ entry ∈ collab.attributes.entries, entry.1 ∈ schema.ownFields.map (·.name)
  typed : ∀ entry ∈ collab.attributes.entries, ∀ field ∈ schema.ownFields, field.name = entry.1 →
    field.type.Accepts entry.2

structure Conforms (schema : Schema) (collab : Collab) : Prop extends Fits schema collab where
  named : collab.name ≠ ""
  api : collab.api = schema.api
  complete : ∀ field ∈ schema.ownFields, field.name ∈ collab.attributes.entries.map (·.1)

theorem Conforms.keys_eq {schema : Schema} {first second : Collab}
    (left : first.Conforms schema) (right : second.Conforms schema) :
    first.attributes.entries.map (·.1) = second.attributes.entries.map (·.1) := by
  have mem {collab : Collab} (conforms : collab.Conforms schema) (key : String) :
      key ∈ collab.attributes.entries.map (·.1) ↔ key ∈ schema.ownFields.map (·.name) := by
    constructor
    · intro member
      obtain ⟨entry, inAttributes, rfl⟩ := List.mem_map.1 member
      exact conforms.own entry inAttributes
    · intro member
      obtain ⟨field, inFields, rfl⟩ := List.mem_map.1 member
      exact conforms.complete field inFields
  have sorted (collab : Collab) : (collab.attributes.entries.map (·.1)).Pairwise (· < ·) :=
    List.pairwise_map.2 collab.attributes.ascending
  have perm : (first.attributes.entries.map (·.1)).Perm (second.attributes.entries.map (·.1)) :=
    (List.perm_ext_iff_of_nodup (Ascending.nodup_keys first.attributes.ascending)
      (Ascending.nodup_keys second.attributes.ascending)).2
      fun key => (mem left key).trans (mem right key).symm
  exact perm.eq_of_pairwise (fun _ _ _ _ below above => absurd below (lt_asymm above))
    (sorted first) (sorted second)

section

variable {api : String} {own : List Field} {collab after : Collab}

theorem mem_keys_of_assign {field : String} {value : Json}
    (assigned : collab.assign (Schema.ofFields api own) field value = .ok after) {key : String}
    (held : key ∈ collab.attributes.entries.map (·.1) ∨ (key = field ∧ field ∉ commonNames)) :
    key ∈ after.attributes.entries.map (·.1) := by
  obtain ⟨_, -, -, ⟨common, enabled, rfl⟩ | ⟨-, rfl⟩⟩ := assign_cases assigned
  · rcases held with member | ⟨-, notCommon⟩
    · exact member
    · exact absurd common notCommon
  · refine Ascending.mem_keys_insert.2 ?_
    rcases held with member | ⟨same, -⟩
    · exact .inr member
    · exact .inl same

theorem mem_keys_of_startField {edit : EditSet} {field other : Field}
    (started : startField (Schema.ofFields api own) edit collab field = .ok after)
    (held : other = field ∨ other.name ∈ collab.attributes.entries.map (·.1))
    (notCommon : other.name ∉ commonNames) : other.name ∈ after.attributes.entries.map (·.1) := by
  obtain ⟨value, assigned⟩ := assign_of_startField started
  rcases held with rfl | before
  · exact mem_keys_of_assign assigned (.inr ⟨rfl, notCommon⟩)
  · exact mem_keys_of_assign assigned (.inl before)

theorem complete_of_construct {edit : EditSet}
    (constructed : construct (Schema.ofFields api own) edit = .ok collab) :
    ∀ field ∈ (Schema.ofFields api own).ownFields,
      field.name ∈ collab.attributes.entries.map (·.1) := by
  obtain ⟨name, -, run⟩ := construct_cases constructed
  have filled := Except.foldlM_establishes
    (P := fun field before => field.name ∉ commonNames →
      field.name ∈ before.attributes.entries.map (·.1))
    (fun _ _ _ started => mem_keys_of_startField started (.inl rfl))
    (fun _ _ _ _ held started notCommon =>
      mem_keys_of_startField started (.inr (held notCommon)) notCommon) run
  intro field inOwn
  obtain ⟨inFields, notCommon⟩ := List.mem_filter.1 inOwn
  have notCommon := of_decide_eq_true notCommon
  -- Only the name is not started, and that is a common field.
  have notName : field.name ≠ "name" := fun same => notCommon (by rw [same]; decide)
  exact filled field (List.mem_filter.2 ⟨inFields, decide_eq_true notName⟩) notCommon

variable (distinct : ((Schema.ofFields api own).fields.map (·.name)).Nodup)

include distinct

theorem Fits.assign (fits : collab.Fits (Schema.ofFields api own)) {field : String} {value : Json}
    (assigned : collab.assign (Schema.ofFields api own) field value = .ok after) :
    after.Fits (Schema.ofFields api own) := by
  obtain ⟨declared, found, accepts, ⟨-, enabled, rfl⟩ | ⟨notCommon, rfl⟩⟩ := assign_cases assigned
  · exact ⟨fits.own, fits.typed⟩
  · have mem {other : Field} : other ∈ (Schema.ofFields api own).ownFields ↔
        other ∈ (Schema.ofFields api own).fields ∧ other.name ∉ commonNames := by
      simp [Schema.ownFields]
    obtain ⟨inFields, rfl⟩ := (Schema.find?_eq_some_iff distinct).1 found
    refine ⟨fun entry member => ?_, fun entry member other inOwn same => ?_⟩
    · rcases Ascending.mem_insert member with rfl | inAttributes
      · exact List.mem_map_of_mem (mem.2 ⟨inFields, notCommon⟩)
      · exact fits.own entry inAttributes
    -- Names stand once, so any field of the name is the declared one.
    · rcases Ascending.mem_insert member with rfl | inAttributes
      · cases List.inj_on_of_nodup_map distinct (mem.1 inOwn).1 inFields same
        exact accepts
      · exact fits.typed entry inAttributes other inOwn same

theorem Conforms.assign (conforms : collab.Conforms (Schema.ofFields api own)) {field : String}
    {value : Json}
    (assigned : collab.assign (Schema.ofFields api own) field value = .ok after) :
    after.Conforms (Schema.ofFields api own) :=
  have kept := assign_kept assigned
  { toFits := conforms.toFits.assign distinct assigned
    named := fun empty => conforms.named (kept.name.symm.trans empty)
    api := kept.api.trans conforms.api
    complete := fun field inOwn =>
      mem_keys_of_assign assigned (.inl (conforms.complete field inOwn)) }

theorem Conforms.assignAll (conforms : collab.Conforms (Schema.ofFields api own)) {edit : EditSet}
    (assigned : collab.assignAll (Schema.ofFields api own) edit = .ok after) :
    after.Conforms (Schema.ofFields api own) :=
  Except.foldlM_preserves (fun _ _ _ before step => before.assign distinct step) conforms assigned

theorem conforms_of_construct {edit : EditSet}
    (constructed : construct (Schema.ofFields api own) edit = .ok collab) :
    collab.Conforms (Schema.ofFields api own) := by
  obtain ⟨name, named, run⟩ := construct_cases constructed
  have empty : Fits (Schema.ofFields api own) ⟨name, api, true, .empty⟩ :=
    ⟨by simp, by simp⟩
  have fits : collab.Fits (Schema.ofFields api own) := by
    refine Except.foldlM_preserves (fun before field next fits started => ?_) empty run
    obtain ⟨value, assigned⟩ := assign_of_startField started
    exact fits.assign distinct assigned
  have kept : Kept ⟨name, api, true, .empty⟩ collab :=
    Except.foldlM_preserves (fun _ _ _ before started => before.trans (startField_kept started))
      (.refl _) run
  exact ⟨fits, fun none => named (kept.name.symm.trans none), kept.api,
    complete_of_construct constructed⟩

end

end Collab

end SignalExchange
