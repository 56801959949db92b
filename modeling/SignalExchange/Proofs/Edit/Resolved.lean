import SignalExchange.Proofs.Edit.Resolve

/-! What a resolved edit assigns.

Every assignment is one of the layers, so it is to a field of the schema. The name is that of the
record that is looked up, and a document without flags over it assigns no value of a wrong type.
-/

set_option autoImplicit false

namespace SignalExchange

namespace EditSet

theorem mem_of_mem_assign {field : String} {value : Json} {entries : List (String × Json)}
    {entry : String × Json} (member : entry ∈ assign field value entries) :
    entry = (field, value) ∨ entry ∈ entries := by
  induction entries with
  | nil => exact .inl (List.mem_singleton.1 member)
  | cons first rest ih =>
    obtain ⟨key, old⟩ := first
    rw [assign] at member
    split at member
    next same =>
      subst same
      exact (List.mem_cons.1 member).imp_right (List.mem_cons_of_mem _)
    next =>
      rcases List.mem_cons.1 member with rfl | inRest
      · exact .inr List.mem_cons_self
      · exact (ih inRest).imp_right (List.mem_cons_of_mem _)

theorem mem_of_mem_ofList {entries : List (String × Json)} {entry : String × Json}
    (member : entry ∈ (ofList entries).entries) : entry ∈ entries := by
  induction entries using List.reverseRecOn with
  | nil => cases member
  | append_singleton entries last ih =>
    rw [ofList_concat] at member
    rcases mem_of_mem_assign member with rfl | old
    · exact List.mem_append_right _ (List.mem_singleton.2 rfl)
    · exact List.mem_append_left _ (ih old)

theorem mem_of_lookup {field : String} {value : Json} {entries : List (String × Json)}
    (found : lookup field entries = some value) : (field, value) ∈ entries := by
  induction entries with
  | nil => cases found
  | cons first rest ih =>
    obtain ⟨key, other⟩ := first
    rw [lookup] at found
    split at found
    next same =>
      cases found
      rw [same]
      exact List.mem_cons_self
    next => exact List.mem_cons_of_mem _ (ih found)

theorem lookup_eq_none {field : String} {entries : List (String × Json)}
    (absent : field ∉ entries.map (·.1)) : lookup field entries = none := by
  cases found : lookup field entries with
  | none => rfl
  | some value => exact absurd (List.mem_map_of_mem (mem_of_lookup found)) absent

end EditSet

/-- The schema has a field of the name, with a type that accepts the value. -/
def Schema.Takes (schema : Schema) (entry : String × Json) : Prop :=
  ∃ field, schema.find? entry.1 = some field ∧ field.type.Accepts entry.2

/-- The type of a field accepts what is taken under its name. -/
theorem Schema.accepts_of_takes {schema : Schema} (distinct : (schema.fields.map (·.name)).Nodup)
    {field : Field} (member : field ∈ schema.fields) {value : Json}
    (takes : schema.Takes (field.name, value)) : field.type.Accepts value := by
  obtain ⟨declared, found, fits⟩ := takes
  cases found.symm.trans ((find?_eq_some_iff distinct).2 ⟨member, rfl⟩)
  exact fits

/-- What every resolved edit has, whatever was given. -/
structure ResolvedEdit.Proper (schema : Schema) (resolved : ResolvedEdit) : Prop where
  known : ∀ entry ∈ resolved.edit.entries, ∃ field, schema.find? entry.1 = some field
  named : ∀ entry ∈ resolved.edit.entries, entry.1 = "name" →
    entry.2 = .string resolved.identifier
  titled : resolved.create = true →
    resolved.edit.get? "name" = some (.string resolved.identifier)

namespace EditArgs

variable {api declared : String} {own : List Field} {fields : List EditableField}
  {args : EditArgs} {identifier : String} {document : List (String × Json)}

theorem mem_layers {entry : String × Json}
    (member : entry ∈ args.layers api fields identifier document) :
    entry ∈ document ∨ entry ∈ args.identity api identifier ∨ entry ∈ args.toggle ∨
      entry ∈ args.flags fields := by
  simpa [layers, or_assoc] using member

theorem mem_flags {entry : String × Json} (member : entry ∈ args.flags fields) :
    ∃ field ∈ fields, field.name = entry.1 := by
  obtain ⟨field, inFields, given⟩ := List.mem_filterMap.1 member
  obtain ⟨value, -, rfl⟩ := Option.map_eq_some_iff.1 given
  exact ⟨field, inFields, rfl⟩

theorem mem_identity {entry : String × Json} (member : entry ∈ args.identity api identifier) :
    entry = ("name", .string identifier) ∨ entry = ("enabled", .boolean true) ∨
      entry = ("api", .string api) := by
  unfold identity at member
  split at member
  · simpa using member
  · cases member

theorem mem_toggle {entry : String × Json} (member : entry ∈ args.toggle) :
    ∃ enabled, entry = ("enabled", .boolean enabled) := by
  unfold toggle at member
  split at member
  · cases member
  · exact ⟨_, List.mem_singleton.1 member⟩

theorem Starts.permitted (starts : Starts fields args identifier document) :
    ∀ entry ∈ document, Permitted fields entry := by
  cases starts with
  | plain => simp
  | document _ _ _ permitted => exact permitted

theorem Starts.name (starts : Starts fields args identifier document) {value : Json}
    (given : ("name", value) ∈ document) : value = .string identifier := by
  cases starts with
  | plain => cases given
  | document _ read named =>
    have found := (Ascending.find?_eq_some_iff (Json.ascending_of_read read) "name" value).2 given
    exact Option.some.inj (found.symm.trans named)

section

variable (described : (Schema.ofFields declared own).editableFields = .ok fields)

theorem takes_text {key : String} (identity : key = "name" ∨ key = "api") (text : String) :
    (Schema.ofFields declared own).Takes (key, .string text) := by
  rcases identity with rfl | rfl
  · exact ⟨_, rfl, FieldType.text_accepts_iff.2 ⟨text, rfl⟩⟩
  · exact ⟨_, rfl, FieldType.text_accepts_iff.2 ⟨text, rfl⟩⟩

theorem takes_enabled (enabled : Bool) :
    (Schema.ofFields declared own).Takes ("enabled", .boolean enabled) :=
  ⟨_, rfl, FieldType.boolean_accepts_iff.2 ⟨enabled, rfl⟩⟩

theorem takes_identity {entry : String × Json} (member : entry ∈ args.identity api identifier) :
    (Schema.ofFields declared own).Takes entry := by
  rcases mem_identity member with rfl | rfl | rfl
  · exact takes_text (.inl rfl) identifier
  · exact takes_enabled true
  · exact takes_text (.inr rfl) api

theorem takes_toggle {entry : String × Json} (member : entry ∈ args.toggle) :
    (Schema.ofFields declared own).Takes entry := by
  obtain ⟨enabled, rfl⟩ := mem_toggle member
  exact takes_enabled enabled

include described

theorem takes_of_permitted {entry : String × Json} (permitted : Permitted fields entry) :
    (Schema.ofFields declared own).Takes entry := by
  obtain ⟨key, value⟩ := entry
  rcases permitted with ⟨identity, text, rfl⟩ | ⟨rfl, enabled, rfl⟩ | ⟨field, member, rfl, fits⟩
  · exact takes_text identity text
  · exact takes_enabled enabled
  · obtain ⟨there, found, same, -⟩ := Schema.find?_of_editable described member
    exact ⟨there, found, same ▸ fits⟩

theorem proper_of_resolve {resolved : ResolvedEdit}
    (done : args.resolve api fields = .ok resolved) :
    resolved.Proper (Schema.ofFields declared own) := by
  obtain ⟨names, apart⟩ := Schema.editable_names described
  obtain ⟨document, starts, edit, create⟩ := (resolve_eq_ok names apart).1 done
  have overlays := overlays_of_resolve names starts.ascending edit create
  refine ⟨fun entry member => ?_, fun entry member isName => ?_, fun creates => ?_⟩
  · rw [edit] at member
    -- Whichever layer an assignment comes from, the schema has its field.
    have takes {entry : String × Json} :
        (Schema.ofFields declared own).Takes entry →
          ∃ field, (Schema.ofFields declared own).find? entry.1 = some field :=
      fun ⟨field, found, _⟩ => ⟨field, found⟩
    rcases mem_layers (EditSet.mem_of_mem_ofList member) with given | identity | toggle | flag
    · exact takes (takes_of_permitted described (starts.permitted entry given))
    · exact takes (takes_identity identity)
    · exact takes (takes_toggle toggle)
    · obtain ⟨field, inFields, same⟩ := mem_flags flag
      obtain ⟨there, found, -, -⟩ := Schema.find?_of_editable described inFields
      exact ⟨there, same ▸ found⟩
  · rw [edit] at member
    obtain ⟨key, value⟩ := entry
    subst isName
    rcases mem_layers (EditSet.mem_of_mem_ofList member) with given | identity | toggle | flag
    · exact starts.name given
    · rcases mem_identity identity with same | same | same
      · exact (Prod.mk.inj same).2
      · exact absurd (Prod.mk.inj same).1 (by decide)
      · exact absurd (Prod.mk.inj same).1 (by decide)
    · obtain ⟨enabled, same⟩ := mem_toggle toggle
      exact absurd (Prod.mk.inj same).1 (by decide)
    · obtain ⟨field, inFields, same⟩ := mem_flags flag
      have common : "name" ∈ commonNames := by decide
      exact absurd (same ▸ common) (apart field inFields)
  · have created : args.create = true := create.symm.trans creates
    rw [overlays.value, value?, flag?_common apart (by decide), identity, toggle, if_pos created]
    cases args.enable <;> rfl

theorem takes_of_document {resolved : ResolvedEdit} (noFlags : args.fields = [])
    (done : args.resolve api fields = .ok resolved) :
    ∀ entry ∈ resolved.edit.entries, (Schema.ofFields declared own).Takes entry := by
  obtain ⟨names, apart⟩ := Schema.editable_names described
  obtain ⟨document, starts, edit, create⟩ := (resolve_eq_ok names apart).1 done
  intro entry member
  rw [edit] at member
  rcases mem_layers (EditSet.mem_of_mem_ofList member) with given | identity | toggle | flag
  · exact takes_of_permitted described (starts.permitted entry given)
  · exact takes_identity identity
  · exact takes_toggle toggle
  · have none : args.flags fields = [] := by simp [flags, noFlags, EditSet.lookup]
    rw [none] at flag
    cases flag

end

end EditArgs

end SignalExchange
