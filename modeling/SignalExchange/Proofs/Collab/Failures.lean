import SignalExchange.Proofs.Collab.Assignment

/-! What an edit of a record can fail with.

An assignment is refused for an unknown field, for a value of another type, or because it would
change the name or the exchange of the record. A construction fails for want of a name or of a
field, or with one of its assignments.
-/

set_option autoImplicit false

namespace SignalExchange

/-- Errors that stand for a defect of the program: internal ones, a row that is there when a record
is created, and a row that is not there when one is updated. -/
inductive ConfigError.Unforeseen : ConfigError → Prop where
  | internal (message : String) : Unforeseen (.internal message)
  | nameTaken (table column : String) : Unforeseen (.storage (.engine (.repeatedKey table column)))
  | rowMissing (name : String) :
      Unforeseen (.storage (.serialization ("Collab not found: " ++ name)))

namespace Collab

inductive Refused (schema : Schema) (collab : Collab) : String → Json → ConfigError → Prop where
  | unknown {field : String} {value : Json} (missing : schema.find? field = none) :
      Refused schema collab field value (unknownField schema field)
  | mistyped {field : String} {value : Json} {declared : Field} {mismatch : FieldType.Mismatch}
      (found : schema.find? field = some declared) (misfit : ¬declared.type.Accepts value) :
      Refused schema collab field value (.ofMismatch field mismatch)
  | renamed {name message : String} (differs : name ≠ collab.name) :
      Refused schema collab "name" (.string name) (.internal message)
  | moved {api : String} (differs : api ≠ collab.api) :
      Refused schema collab "api" (.string api) (.crossApi collab.api api)

theorem refused_of_put (schema : Schema) {collab : Collab} {field : String} {value : Json}
    {error : ConfigError} (failed : collab.put field value = .error error) :
    Refused schema collab field value error := by
  unfold put at failed
  split at failed
  · split at failed
    · cases failed
    next differs =>
      cases failed
      exact .renamed differs
  · split at failed
    · cases failed
    next differs =>
      cases failed
      exact .moved differs
  · cases failed
  · cases failed

theorem refused_of_assign {schema : Schema} {collab : Collab} {field : String} {value : Json}
    {error : ConfigError} (failed : collab.assign schema field value = .error error) :
    Refused schema collab field value error := by
  unfold assign at failed
  split at failed
  next missing =>
    cases failed
    exact .unknown missing
  next declared found =>
    rcases Except.bind_eq_error.1 failed with checked | ⟨_, -, put⟩
    · obtain ⟨mismatch, misfit, rfl⟩ := Except.mapError_eq_error.1 checked
      exact .mistyped found fun fits => nomatch misfit.symm.trans fits
    · exact refused_of_put schema put

theorem refused_of_assignAll {api : String} {own : List Field} {collab : Collab} {edit : EditSet}
    {error : ConfigError}
    (failed : collab.assignAll (Schema.ofFields api own) edit = .error error) :
    ∃ entry ∈ edit.entries, ∃ before, Kept collab before ∧
      Refused (Schema.ofFields api own) before entry.1 entry.2 error := by
  obtain ⟨entry, member, before, kept, step⟩ := Except.foldlM_eq_error
    (P := Kept collab) (fun _ _ _ kept step => kept.trans (assign_kept step)) (.refl collab) failed
  exact ⟨entry, member, before, kept, refused_of_assign step⟩

inductive NotMade (schema : Schema) (edit : EditSet) : ConfigError → Prop where
  | unknown {key : String} (member : key ∈ edit.keys) (missing : schema.find? key = none) :
      NotMade schema edit (unknownField schema key)
  | unnamed {error : ConfigError} (failed : newName edit = .error error) :
      NotMade schema edit error
  | incomplete {field : Field} (absent : edit.get? field.name = none) :
      NotMade schema edit (.missingField field.name)
  | refused {field : Field} {value : Json} {before : Collab} {error : ConfigError}
      (member : field ∈ schema.fields) (notName : field.name ≠ "name")
      (starts : initialValue schema edit field = .ok value)
      (refused : Refused schema before field.name value error) : NotMade schema edit error

theorem absent_of_initialValue {schema : Schema} {edit : EditSet} {field : Field}
    {error : ConfigError} (failed : initialValue schema edit field = .error error) :
    edit.get? field.name = none ∧ error = .missingField field.name := by
  unfold initialValue at failed
  split at failed
  · cases failed
  · cases failed
  next absent _ =>
    split at failed
    · cases failed
    · cases failed
      exact ⟨absent, rfl⟩

theorem notMade_of_construct {schema : Schema} {edit : EditSet} {error : ConfigError}
    (failed : construct schema edit = .error error) : NotMade schema edit error := by
  unfold construct at failed
  split at failed
  next key unknown =>
    have missing := List.find?_some unknown
    cases failed
    exact .unknown (List.mem_of_find?_eq_some unknown) (by simpa using missing)
  next =>
    rcases Except.bind_eq_error.1 failed with unnamed | ⟨name, -, fields⟩
    · exact .unnamed unnamed
    · obtain ⟨field, member, before, -, step⟩ :=
        Except.foldlM_eq_error (P := fun _ => True) (fun _ _ _ _ _ => trivial) trivial fields
      obtain ⟨inFields, notName⟩ := List.mem_filter.1 member
      rcases Except.bind_eq_error.1 step with start | ⟨value, starts, assigned⟩
      · obtain ⟨absent, rfl⟩ := absent_of_initialValue start
        exact .incomplete absent
      · exact .refused inFields (of_decide_eq_true notName) starts (refused_of_assign assigned)

end Collab

end SignalExchange
