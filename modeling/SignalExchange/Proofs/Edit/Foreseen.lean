import SignalExchange.Proofs.Collab.Failures
import SignalExchange.Proofs.Collab.Verdict
import SignalExchange.Proofs.Edit.Resolved

/-! The errors that an edit can end with.

A resolved edit assigns to fields of its schema only, and its name is that of the record it is
applied to. So no error of an edit stands for a defect of the program. Where the values were checked
before, none of them is refused later.
-/

set_option autoImplicit false

namespace SignalExchange

open Call Database

namespace ConfigError

def IsInvalidValue (error : ConfigError) : Prop :=
  ∃ field message, error = .invalidValue field message

theorem unforeseen_storage_iff {error : StoreError} :
    (ConfigError.storage error).Unforeseen ↔
      (∃ table column, error = .engine (.repeatedKey table column)) ∨
        ∃ name, error = .serialization ("Collab not found: " ++ name) := by
  constructor
  · rintro (_ | ⟨table, column⟩ | ⟨name⟩)
    · exact .inl ⟨table, column, rfl⟩
    · exact .inr ⟨name, rfl⟩
  · rintro (⟨table, column, rfl⟩ | ⟨name, rfl⟩)
    · exact .nameTaken table column
    · exact .rowMissing name

/-- A row that cannot be read is nothing that the program does wrong. -/
theorem damaged_foreseen (message : String) :
    ¬(ConfigError.storage
      (.serialization ("Failed to parse collab: " ++ message))).Unforeseen := by
  rw [unforeseen_storage_iff]
  rintro (⟨table, column, same⟩ | ⟨name, same⟩)
  · cases same
  · -- The texts differ in their first letters.
    have texts := congrArg String.toList (StoreError.serialization.inj same)
    rw [String.toList_append, String.toList_append] at texts
    exact absurd (List.cons.inj texts).1 (by decide)

end ConfigError

namespace Collab

variable {schema : Schema} {collab : Collab} {edit : EditSet} {field : String} {value : Json}
  {error : ConfigError}

theorem Refused.foreseen (refused : Refused schema collab field value error)
    (known : ∃ declared, schema.find? field = some declared)
    (named : field = "name" → value = .string collab.name) : ¬error.Unforeseen := by
  cases refused with
  | unknown missing =>
    obtain ⟨declared, found⟩ := known
    cases missing.symm.trans found
  | mistyped => exact nofun
  | renamed differs => exact absurd (Json.string.inj (named rfl)) differs
  | moved => exact nofun

theorem Refused.valid (refused : Refused schema collab field value error)
    (takes : schema.Takes (field, value)) : ¬error.IsInvalidValue := by
  cases refused with
  | unknown => exact nofun
  | mistyped found misfit =>
    obtain ⟨declared, there, fits⟩ := takes
    cases found.symm.trans there
    exact absurd fits misfit
  | renamed => exact nofun
  | moved => exact nofun

theorem newName_foreseen (failed : newName edit = .error error) : ¬error.Unforeseen := by
  unfold newName at failed
  split at failed
  · split at failed
    · cases failed
      exact nofun
    · cases failed
  · cases failed
    exact nofun
  · cases failed
    exact nofun

theorem newName_valid {name : String} (given : edit.get? "name" = some (.string name))
    (failed : newName edit = .error error) : ¬error.IsInvalidValue := by
  rw [newName, given] at failed
  simp only at failed
  split at failed
  · cases failed
    exact nofun
  · cases failed

theorem NotMade.foreseen (notMade : NotMade schema edit error)
    (distinct : (schema.fields.map (·.name)).Nodup)
    (known : ∀ key ∈ edit.keys, ∃ declared, schema.find? key = some declared) :
    ¬error.Unforeseen := by
  cases notMade with
  | unknown member missing =>
    obtain ⟨declared, found⟩ := known _ member
    cases missing.symm.trans found
  | unnamed failed => exact newName_foreseen failed
  | incomplete => exact nofun
  | @refused field _ _ _ member notName _ refused =>
    have found := (Schema.find?_eq_some_iff distinct).2 ⟨member, rfl⟩
    exact refused.foreseen ⟨field, found⟩ fun isName => absurd isName notName

end Collab

namespace Schema

variable {api : String} {own : List Field} {fields : List EditableField}

theorem takes_initialValue (described : (ofFields api own).editableFields = .ok fields)
    {edit : EditSet} (takes : ∀ entry ∈ edit.entries, (ofFields api own).Takes entry)
    {field : Field} (member : field ∈ (ofFields api own).fields) {value : Json}
    (starts : Collab.initialValue (ofFields api own) edit field = .ok value) :
    (ofFields api own).Takes (field.name, value) := by
  obtain ⟨accepted, distinct, -⟩ := editableFields_eq_ok.1 described
  have found := (find?_eq_some_iff distinct).2 ⟨member, rfl⟩
  unfold Collab.initialValue at starts
  split at starts
  next given =>
    cases starts
    exact takes _ (EditSet.mem_of_lookup given)
  next default =>
    cases starts
    have fits := (accepted field member).default
    rw [Field.defaultFits, default] at fits
    exact ⟨field, found, Except.mapError_eq_ok.1 fits⟩
  next =>
    split at starts
    next isApi =>
      cases starts
      exact EditArgs.takes_text (.inr isApi) _
    next => cases starts

end Schema

namespace ResolvedEdit

variable {api : String} {own : List Field} {fields : List EditableField} {edit : ResolvedEdit}
  {held : Option Collab} {error : ConfigError}
  (described : (Schema.ofFields api own).editableFields = .ok fields)
  (proper : edit.Proper (Schema.ofFields api own))

include described proper

theorem verdict_foreseen (named : ∀ collab, held = some collab → collab.name = edit.identifier)
    (failed : edit.verdict (Schema.ofFields api own) held = .error error) :
    ¬error.Unforeseen := by
  obtain ⟨-, distinct, -⟩ := Schema.editableFields_eq_ok.1 described
  unfold verdict at failed
  split at failed
  next existing =>
    split at failed
    · cases failed
      exact nofun
    · split at failed
      · obtain ⟨entry, member, before, kept, refused⟩ :=
          Collab.refused_of_assignAll (Except.map_eq_error.1 failed)
        refine refused.foreseen (proper.known entry member) fun isName => ?_
        -- The assignments before this one kept the name.
        rw [proper.named entry member isName, kept.name, named existing rfl]
      · cases failed
        exact nofun
  next =>
    split at failed
    · have known : ∀ key ∈ edit.edit.keys, ∃ declared,
          (Schema.ofFields api own).find? key = some declared := by
        intro key member
        obtain ⟨entry, inEdit, rfl⟩ := List.mem_map.1 member
        exact proper.known entry inEdit
      exact (Collab.notMade_of_construct (Except.map_eq_error.1 failed)).foreseen distinct known
    · cases failed
      exact nofun

theorem verdict_valid
    (takes : ∀ entry ∈ edit.edit.entries, (Schema.ofFields api own).Takes entry)
    (failed : edit.verdict (Schema.ofFields api own) held = .error error) :
    ¬error.IsInvalidValue := by
  unfold verdict at failed
  split at failed
  next existing =>
    split at failed
    · cases failed
      exact nofun
    · split at failed
      · obtain ⟨entry, member, before, -, refused⟩ :=
          Collab.refused_of_assignAll (Except.map_eq_error.1 failed)
        exact refused.valid (takes entry member)
      · cases failed
        exact nofun
  next =>
    split at failed
    next create =>
      cases Collab.notMade_of_construct (Except.map_eq_error.1 failed) with
      | unknown => exact nofun
      | unnamed unnamed => exact Collab.newName_valid (proper.titled create) unnamed
      | incomplete => exact nofun
      | refused inFields notName starts refused =>
        -- The value may be a default, which was checked when the schema was described.
        exact refused.valid (Schema.takes_initialValue described takes inFields starts)
    next =>
      cases failed
      exact nofun

end ResolvedEdit

/-! Edits on a database -/

section

variable {api : String} {own : List Field} {fields : List EditableField} {edit : ResolvedEdit}
  {database after : Database} {error : ConfigError}
  (described : (Schema.ofFields api own).editableFields = .ok fields)
  (proper : edit.Proper (Schema.ofFields api own)) (authored : Authored database)
  (failed : outcome (collabStore.apply (Schema.ofFields api own) edit) database =
    (.error error, after))

include proper authored failed

theorem apply_error_cases : after = database ∧
    ((∃ message, error = .storage (.serialization ("Failed to parse collab: " ++ message))) ∨
      ∃ held, (∀ collab, held = some collab → collab.name = edit.identifier) ∧
        edit.verdict (Schema.ofFields api own) held = .error error) := by
  obtain ⟨rows, result, there, search, sought⟩ := authored.titled.sought edit.identifier
  have ran := @outcome_apply database rows api own edit result there search sought proper.titled
  obtain ⟨same, ⟨cause, rfl, rfl⟩ | ⟨held, rfl, verdict⟩⟩ :=
    Database.settle_error_cases (ran.symm.trans failed)
  · cases sought with
    | damaged message => exact ⟨same, .inl ⟨message, rfl⟩⟩
  · exact ⟨same, .inr ⟨held, sought.named, verdict⟩⟩

include described

theorem apply_foreseen : ¬error.Unforeseen := by
  obtain ⟨-, ⟨message, rfl⟩ | ⟨held, named, verdict⟩⟩ := apply_error_cases proper authored failed
  · exact ConfigError.damaged_foreseen message
  · exact ResolvedEdit.verdict_foreseen described proper named verdict

theorem apply_valid
    (takes : ∀ entry ∈ edit.edit.entries, (Schema.ofFields api own).Takes entry) :
    ¬error.IsInvalidValue := by
  obtain ⟨-, ⟨message, rfl⟩ | ⟨held, named, verdict⟩⟩ := apply_error_cases proper authored failed
  · exact nofun
  · exact ResolvedEdit.verdict_valid described proper takes verdict

end

end SignalExchange
