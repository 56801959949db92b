import SignalExchange.Proofs.Collab.Assignment
import SignalExchange.Proofs.Edit.Resolved

/-! What assignments leave of a record.

Assignments of values that the schema takes all succeed. The record after them is decided by the
value that each field was given, so their order does not matter.
-/

set_option autoImplicit false

namespace SignalExchange

namespace Collab

theorem Formed.attribute?_common {collab : Collab} (formed : collab.Formed) {key : String}
    (common : key ∈ commonNames) : collab.attribute? key = none := by
  cases found : collab.attribute? key with
  | none => rfl
  | some value =>
    exact absurd common (formed _ (AscendingMap.find?_eq_some_iff.1 found))

def enabledAfter (before : Bool) : Option Json → Bool
  | some (.boolean enabled) => enabled
  | _ => before

/-- The record with the given values over those that it had. -/
structure Overlaid (before : Collab) (entries : List (String × Json)) (after : Collab) : Prop where
  kept : Kept before after
  enabled : after.enabled = enabledAfter before.enabled (EditSet.lookup "enabled" entries)
  own : ∀ key ∉ commonNames, after.attribute? key =
    (EditSet.lookup key entries).or (before.attribute? key)

theorem Overlaid.refl (collab : Collab) : Overlaid collab [] collab :=
  ⟨.refl collab, rfl, fun _ _ => rfl⟩

theorem Overlaid.unique {before first second : Collab} {left right : List (String × Json)}
    (formed : before.Formed) (laid : Overlaid before left first)
    (under : Overlaid before right second)
    (same : ∀ key ≠ "name", EditSet.lookup key left = EditSet.lookup key right) :
    first = second := by
  have formedFirst := laid.kept.formed formed
  have formedSecond := under.kept.formed formed
  have enabled : first.enabled = second.enabled := by
    rw [laid.enabled, under.enabled, same "enabled" (by decide)]
  -- Attributes are ordered by their keys, so their lookups decide them.
  have attributes : first.attributes = second.attributes := by
    refine AscendingMap.eq_of_find? fun key => ?_
    change first.attribute? key = second.attribute? key
    by_cases common : key ∈ commonNames
    · rw [formedFirst.attribute?_common common, formedSecond.attribute?_common common]
    · have notName : key ≠ "name" := by
        rintro rfl
        exact common (by decide)
      rw [laid.own key common, under.own key common, same key notName]
  obtain ⟨name, api, _, _⟩ := first
  obtain ⟨name', api', _, _⟩ := second
  cases laid.kept.name.trans under.kept.name.symm
  cases laid.kept.api.trans under.kept.api.symm
  cases enabled
  cases attributes
  rfl

section

variable {api : String} {own : List Field} {before : Collab}

/-- A value of the name or the exchange is one that the record has already. -/
def Agrees (collab : Collab) (entry : String × Json) : Prop :=
  (entry.1 = "name" → entry.2 = .string collab.name) ∧
    (entry.1 = "api" → entry.2 = .string collab.api)

theorem Kept.agrees_iff {after : Collab} (kept : Kept before after) (entry : String × Json) :
    after.Agrees entry ↔ before.Agrees entry := by
  rw [Agrees, Agrees, kept.name, kept.api]

theorem put_of_agrees {key : String} {value : Json} (typed : Typed key value)
    (agrees : before.Agrees (key, value)) :
    ∃ after, before.put key value = .ok after ∧ Overlaid before [(key, value)] after := by
  by_cases common : key ∈ commonNames
  · have apart : ∀ other ∉ commonNames, EditSet.lookup other [(key, value)] = none := by
      intro other notCommon
      have differs : key ≠ other := by
        rintro rfl
        exact notCommon common
      simp [EditSet.lookup, differs]
    -- A name or an exchange that agrees is the one that the record has, so nothing is written.
    rcases mem_commonNames.1 common with rfl | rfl | rfl
    · cases agrees.1 rfl
      refine ⟨before, by simp [put], .refl before, rfl, fun other notCommon => ?_⟩
      rw [apart other notCommon, Option.none_or]
    · cases agrees.2 rfl
      refine ⟨before, by simp [put], .refl before, rfl, fun other notCommon => ?_⟩
      rw [apart other notCommon, Option.none_or]
    · obtain ⟨enabled, rfl⟩ := typed.enabled rfl
      refine ⟨{ before with enabled := enabled }, rfl, kept_enabled before enabled, rfl,
        fun other notCommon => ?_⟩
      rw [apart other notCommon, Option.none_or]
      rfl
  · refine ⟨_, put_own before common value, kept_attribute before common value, ?_,
      fun other _ => ?_⟩
    · have differs : key ≠ "enabled" := by
        rintro rfl
        exact common (by decide)
      simp [EditSet.lookup, differs, enabledAfter]
    · by_cases same : key = other
      · subst same
        simp [EditSet.lookup, attribute?]
      · simp [EditSet.lookup, same, attribute?, AscendingMap.find?_insert_of_ne (Ne.symm same)]

theorem assign_of_takes {key : String} {value : Json}
    (takes : (Schema.ofFields api own).Takes (key, value)) (agrees : before.Agrees (key, value)) :
    ∃ after, before.assign (Schema.ofFields api own) key value = .ok after ∧
      Overlaid before [(key, value)] after := by
  obtain ⟨declared, found, fits⟩ := takes
  obtain ⟨after, put, laid⟩ := put_of_agrees (typed_of_accepts found fits) agrees
  have checked : declared.type.check value = .ok () := fits
  refine ⟨after, ?_, laid⟩
  rw [assign, found]
  simp [checked, put]

theorem Overlaid.cons {middle after : Collab} {key : String} {value : Json}
    {rest : List (String × Json)} (first : Overlaid before [(key, value)] middle)
    (more : Overlaid middle rest after) (fresh : EditSet.lookup key rest = none) :
    Overlaid before ((key, value) :: rest) after := by
  refine ⟨first.kept.trans more.kept, ?_, fun other notCommon => ?_⟩
  · rw [more.enabled, first.enabled]
    by_cases same : key = "enabled"
    · subst same
      simp [EditSet.lookup, fresh, enabledAfter]
    · simp [EditSet.lookup, same, enabledAfter]
  · rw [more.own other notCommon, first.own other notCommon]
    by_cases same : key = other
    · subst same
      simp [EditSet.lookup, fresh]
    · simp [EditSet.lookup, same]

theorem assignAll_of_takes {edit : EditSet} (distinct : edit.keys.Nodup)
    (takes : ∀ entry ∈ edit.entries, (Schema.ofFields api own).Takes entry)
    (agrees : ∀ entry ∈ edit.entries, before.Agrees entry) :
    ∃ after, before.assignAll (Schema.ofFields api own) edit = .ok after ∧
      Overlaid before edit.entries after := by
  obtain ⟨entries⟩ := edit
  simp only [assignAll, EditSet.keys] at *
  induction entries generalizing before with
  | nil => exact ⟨before, rfl, .refl before⟩
  | cons entry rest ih =>
    obtain ⟨key, value⟩ := entry
    rw [List.forall_mem_cons] at takes agrees
    rw [List.map_cons, List.nodup_cons] at distinct
    obtain ⟨middle, here, first⟩ := assign_of_takes takes.1 agrees.1
    -- The name and the exchange are kept, so the other values agree with the record as it is now.
    have agreesStill : ∀ entry ∈ rest, middle.Agrees entry := fun entry member =>
      (first.kept.agrees_iff entry).2 (agrees.2 entry member)
    obtain ⟨after, there, more⟩ := ih distinct.2 takes.2 agreesStill
    exact ⟨after, by simp [here, there], first.cons more (EditSet.lookup_eq_none distinct.1)⟩

theorem takes_of_assign {collab after : Collab} {key : String} {value : Json}
    (assigned : collab.assign (Schema.ofFields api own) key value = .ok after) :
    (Schema.ofFields api own).Takes (key, value) := by
  obtain ⟨declared, found, fits, -⟩ := assign_cases assigned
  exact ⟨declared, found, fits⟩

theorem takes_of_assignAll {after : Collab} {edit : EditSet}
    (assigned : before.assignAll (Schema.ofFields api own) edit = .ok after) :
    ∀ entry ∈ edit.entries, (Schema.ofFields api own).Takes entry :=
  Except.foldlM_establishes (P := fun entry _ => (Schema.ofFields api own).Takes entry)
    (fun _ _ _ step => takes_of_assign step) (fun _ _ _ _ takes _ => takes) assigned

theorem agrees_of_put {key : String} {value : Json} {after : Collab} (typed : Typed key value)
    (put : before.put key value = .ok after) : before.Agrees (key, value) := by
  constructor
  · rintro (rfl : key = "name")
    obtain ⟨name, rfl⟩ := typed.name rfl
    by_cases same : name = before.name
    · rw [same]
    · simp [Collab.put, same] at put
  · rintro (rfl : key = "api")
    obtain ⟨exchange, rfl⟩ := typed.api rfl
    by_cases same : exchange = before.api
    · rw [same]
    · simp [Collab.put, same] at put

theorem agrees_of_assign {key : String} {value : Json} {after : Collab}
    (assigned : before.assign (Schema.ofFields api own) key value = .ok after) :
    before.Agrees (key, value) := by
  unfold assign at assigned
  split at assigned
  next => cases assigned
  next declared found =>
    obtain ⟨_, checked, put⟩ := Except.bind_eq_ok.1 assigned
    exact agrees_of_put (typed_of_accepts found (Except.mapError_eq_ok.1 checked)) put

theorem agrees_of_assignAll {after : Collab} {edit : EditSet}
    (assigned : before.assignAll (Schema.ofFields api own) edit = .ok after) :
    ∀ entry ∈ edit.entries, before.Agrees entry := by
  -- What an assignment agrees with is the name and the exchange, which all records here share.
  have each := Except.foldlM_establishes (P := fun entry middle => middle.Agrees entry)
    (fun _ entry _ step => ((assign_kept step).agrees_iff entry).2 (agrees_of_assign step))
    (fun entry _ _ _ agrees step => ((assign_kept step).agrees_iff entry).2 agrees) assigned
  exact fun entry member => ((assignAll_kept assigned).agrees_iff entry).1 (each entry member)

theorem exists_assignAll_iff {edit : EditSet} (distinct : edit.keys.Nodup) :
    (∃ after, before.assignAll (Schema.ofFields api own) edit = .ok after) ↔
      ∀ entry ∈ edit.entries, (Schema.ofFields api own).Takes entry ∧ before.Agrees entry := by
  constructor
  · rintro ⟨after, assigned⟩ entry member
    exact ⟨takes_of_assignAll assigned entry member, agrees_of_assignAll assigned entry member⟩
  · intro each
    obtain ⟨after, assigned, -⟩ := assignAll_of_takes distinct
      (fun entry member => (each entry member).1) fun entry member => (each entry member).2
    exact ⟨after, assigned⟩

theorem takes_of_construct {edit : EditSet} {collab : Collab}
    (constructed : construct (Schema.ofFields api own) edit = .ok collab) {key : String}
    {value : Json} (given : edit.get? key = some value) (notName : key ≠ "name") :
    (Schema.ofFields api own).Takes (key, value) := by
  obtain ⟨known, name, -, fields⟩ := construct_eq_ok.1 constructed
  obtain ⟨field, found⟩ := known key (List.mem_map_of_mem (EditSet.mem_of_lookup given))
  have named : field.name = key := by simpa using List.find?_some found
  have inFields : field ∈ (Schema.ofFields api own).fields.filter (·.name ≠ "name") :=
    List.mem_filter.2 ⟨List.mem_of_find?_eq_some found, decide_eq_true (named ▸ notName)⟩
  have brings (before : Collab) (field : Field) (next : Collab)
      (started : startField (Schema.ofFields api own) edit before field = .ok next) :
      ∀ value, edit.get? field.name = some value →
        (Schema.ofFields api own).Takes (field.name, value) := by
    intro value given
    obtain ⟨start, initial, assigned⟩ := Except.bind_eq_ok.1 started
    rw [initialValue, given] at initial
    cases initial
    exact takes_of_assign assigned
  have each := Except.foldlM_establishes brings (fun _ _ _ _ takes _ => takes) fields
  exact named ▸ each field inFields value (named.symm ▸ given)

end

theorem construct_congr {schema : Schema} {first second : EditSet}
    (same : ∀ key, first.get? key = second.get? key)
    (left : ∀ key ∈ first.keys, ∃ field, schema.find? key = some field)
    (right : ∀ key ∈ second.keys, ∃ field, schema.find? key = some field) :
    construct schema first = construct schema second := by
  have names : newName first = newName second := by rw [newName, newName, same]
  have starts : startField schema first = startField schema second := by
    funext collab field
    rw [startField, startField, initialValue, initialValue, same]
  rw [construct, construct, unknown?_eq_none_iff.2 left, unknown?_eq_none_iff.2 right, names,
    starts]

end Collab

end SignalExchange
