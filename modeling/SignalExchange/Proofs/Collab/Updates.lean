import SignalExchange.Proofs.Collab.Overlay
import SignalExchange.Proofs.Collab.Reliable

/-! Edits of records that exist.

Assignments are made on a copy of the record, so an edit takes effect as a whole or not at all. It
overwrites what it assigns and keeps everything else.
-/

set_option autoImplicit false

namespace SignalExchange

open Call

namespace Collab

/-- The record with exactly the assignments of the edit made to it. -/
structure Overwritten (edit : EditSet) (before after : Collab) : Prop where
  name : after.name = before.name
  api : after.api = before.api
  enabled : after.enabled = enabledAfter before.enabled (edit.get? "enabled")
  value (key : String) : after.attribute? key =
    if key ∈ commonNames then before.attribute? key
    else (edit.get? key).or (before.attribute? key)

variable {api : String} {own : List Field} {before after : Collab}

theorem attribute?_of_assign {field : String} {value : Json}
    (assigned : before.assign (Schema.ofFields api own) field value = .ok after) {key : String}
    (common : key ∈ commonNames) : after.attribute? key = before.attribute? key := by
  obtain ⟨_, -, -, ⟨-, enabled, rfl⟩ | ⟨notCommon, rfl⟩⟩ := assign_cases assigned
  · rfl
  · have differs : key ≠ field := by
      rintro rfl
      exact notCommon common
    exact AscendingMap.find?_insert_of_ne differs

theorem overwritten_of_assignAll {edit : EditSet} (distinct : edit.keys.Nodup)
    (assigned : before.assignAll (Schema.ofFields api own) edit = .ok after) :
    Overwritten edit before after := by
  obtain ⟨same, there, laid⟩ := assignAll_of_takes distinct (takes_of_assignAll assigned)
    (agrees_of_assignAll assigned)
  cases there.symm.trans assigned
  refine ⟨laid.kept.name, laid.kept.api, laid.enabled, fun key => ?_⟩
  split
  next common =>
    exact Except.foldlM_preserves (P := fun made => made.attribute? key = before.attribute? key)
      (fun _ _ _ holds step => (attribute?_of_assign step common).trans holds) rfl assigned
  next notCommon => exact laid.own key notCommon

end Collab

theorem ResolvedEdit.verdict_update {schema : Schema} {edit : ResolvedEdit}
    (update : edit.create = false) {held : Option Collab} {done : Outcome} :
    edit.verdict schema held = .ok done ↔
      ∃ existing collab, held = some existing ∧ existing.api = schema.api ∧
        existing.assignAll schema edit.edit = .ok collab ∧ done = .updated collab := by
  cases held with
  | none => simp [verdict, update]
  | some existing =>
    by_cases same : existing.api = schema.api
    · simp only [verdict, update, same, Bool.false_eq_true, if_false, if_true, Except.map_eq_ok]
      constructor
      · rintro ⟨collab, assigned, rfl⟩
        exact ⟨existing, collab, rfl, same, assigned, rfl⟩
      · rintro ⟨_, collab, there, -, assigned, rfl⟩
        cases there
        exact ⟨collab, assigned, rfl⟩
    · simp only [verdict, update, same, Bool.false_eq_true, if_false, reduceCtorEq, false_iff]
      rintro ⟨_, _, there, bound, -, -⟩
      cases there
      exact same bound

section

variable {σ : Type} {store : CollabStore (StateM σ)} {view : RecordView σ}
  (reliable : store.Reliable view) {api : String} {own : List Field} {edit : ResolvedEdit}
  (update : edit.create = false)

include reliable update

/-- An edit of a record that exists succeeds exactly when the record is of the exchange of the
schema and every assignment is to a field, of a value that its type accepts, and to the name and the
exchange only of those that the record has. It overwrites what it assigns and keeps everything else,
and it writes nothing if it fails. -/
theorem update_overwrites {state : σ} (ready : view.ready state)
    (within : edit.Within view.fits (.ofFields api own))
    (stored : ∀ collab, view.held state edit.identifier = some collab →
      collab.name = edit.identifier)
    (distinct : edit.edit.keys.Nodup) :
    ((∃ done after, outcome (store.apply (.ofFields api own) edit) state = (.ok done, after)) ↔
      ∃ existing, view.held state edit.identifier = some existing ∧ existing.api = api ∧
        ∀ entry ∈ edit.edit.entries, (Schema.ofFields api own).Takes entry ∧
          existing.Agrees entry) ∧
    (∀ done after, outcome (store.apply (.ofFields api own) edit) state = (.ok done, after) →
      ∃ existing collab, view.held state edit.identifier = some existing ∧ done = .updated collab ∧
        Collab.Overwritten edit.edit existing collab ∧
        view.held after edit.identifier = some collab ∧
        ∀ other ≠ edit.identifier, view.held after other = view.held state other) ∧
    ∀ error after, outcome (store.apply (.ofFields api own) edit) state = (.error error, after) →
      after = store.afterSearch edit.identifier state ∧ view.held after = view.held state := by
  -- The store goes by the verdict, and the verdict says what an edit of a record needs.
  obtain ⟨left, ran, settles⟩ := outcome_of_verdict reliable ready edit within
    stored fun create => absurd create (update ▸ nofun)
  refine ⟨⟨?_, ?_⟩, ?_, ?_⟩
  · rintro ⟨done, after, succeeded⟩
    obtain ⟨verdict, -⟩ := Prod.mk.inj (ran.symm.trans succeeded)
    obtain ⟨existing, collab, found, same, assigned, -⟩ :=
      (ResolvedEdit.verdict_update update).1 verdict
    exact ⟨existing, found, same, (Collab.exists_assignAll_iff distinct).1 ⟨collab, assigned⟩⟩
  · rintro ⟨existing, found, same, each⟩
    obtain ⟨collab, assigned⟩ := (Collab.exists_assignAll_iff distinct).2 each
    have verdict : edit.verdict (.ofFields api own) (view.held state edit.identifier) =
        .ok (.updated collab) :=
      (ResolvedEdit.verdict_update update).2 ⟨existing, collab, found, same, assigned, rfl⟩
    exact ⟨.updated collab, left, ran.trans (by rw [verdict])⟩
  · intro done after succeeded
    obtain ⟨verdict, rfl⟩ := Prod.mk.inj (ran.symm.trans succeeded)
    obtain ⟨existing, collab, found, same, assigned, rfl⟩ :=
      (ResolvedEdit.verdict_update update).1 verdict
    have named : collab.name = edit.identifier :=
      (Collab.name_of_assignAll assigned).trans (stored existing found)
    obtain ⟨written, others⟩ := held_of_settles reliable ready (verdict ▸ settles)
    rw [show (Outcome.updated collab).collab.name = edit.identifier from named] at written others
    exact ⟨existing, collab, found, rfl, Collab.overwritten_of_assignAll distinct assigned, written,
      others⟩
  · intro error after failed
    obtain ⟨verdict, rfl⟩ := Prod.mk.inj (ran.symm.trans failed)
    exact unchanged_of_settles reliable ready (verdict ▸ settles)

end

def noted : Collab where
  name := "a"
  api := "demo"
  enabled := true
  attributes := .ofList [("note", .string "n"), ("priority", .integer 1)]

def notedFields : List Field :=
  [{ name := "priority", type := .integer }, { name := "note", type := .text }]

def notedTable : RecordTable := RecordTable.put .empty noted

/-- One edit changes the priority and disables the record. Another one would rename the record after
that, so it changes nothing. -/
theorem update_noted :
    (∃ done after, outcome (RecordTable.store.apply (.ofFields "demo" notedFields)
        ⟨"a", ⟨[("priority", .integer 2), ("enabled", .boolean false)]⟩, false⟩) notedTable =
          (.ok done, after) ∧
      ∃ collab, after.find? "a" = some collab ∧ collab.enabled = false ∧
        collab.attribute? "priority" = some (.integer 2) ∧
        collab.attribute? "note" = some (.string "n")) ∧
    ∃ error, outcome (RecordTable.store.apply (.ofFields "demo" notedFields)
        ⟨"a", ⟨[("priority", .integer 2), ("name", .string "b")]⟩, false⟩) notedTable =
          (.error error, notedTable) := by
  have stored : ∀ collab, notedTable.find? "a" = some collab → collab.name = "a" := by
    intro collab found
    cases found
    rfl
  obtain ⟨⟨-, succeeds⟩, overwrites, -⟩ := @update_overwrites _ _ _ RecordTable.store_reliable
    "demo" notedFields ⟨"a", ⟨[("priority", .integer 2), ("enabled", .boolean false)]⟩, false⟩ rfl
    notedTable trivial .total stored (by decide)
  obtain ⟨⟨refuses, -⟩, -, leaves⟩ := @update_overwrites _ _ _ RecordTable.store_reliable
    "demo" notedFields ⟨"a", ⟨[("priority", .integer 2), ("name", .string "b")]⟩, false⟩ rfl
    notedTable trivial .total stored (by decide)
  constructor
  · have takes : (Schema.ofFields "demo" notedFields).Takes ("priority", .integer 2) :=
      ⟨_, rfl, FieldType.integer_accepts_iff.2 ⟨2, rfl, by decide⟩⟩
    have each : ∀ entry ∈ [("priority", Json.integer 2), ("enabled", .boolean false)],
        (Schema.ofFields "demo" notedFields).Takes entry ∧ noted.Agrees entry := by
      simp [takes, EditArgs.takes_enabled, Collab.Agrees]
    obtain ⟨done, after, ran⟩ := succeeds ⟨noted, rfl, rfl, each⟩
    obtain ⟨existing, collab, found, -, laid, written, -⟩ := overwrites done after ran
    cases found
    exact ⟨done, after, ran, collab, written, laid.enabled, laid.value "priority",
      laid.value "note"⟩
  · rcases ran : outcome (RecordTable.store.apply (.ofFields "demo" notedFields)
        ⟨"a", ⟨[("priority", .integer 2), ("name", .string "b")]⟩, false⟩) notedTable with
      ⟨error | done, after⟩
    · obtain ⟨rfl, -⟩ := leaves error after ran
      exact ⟨error, rfl⟩
    · obtain ⟨existing, found, -, each⟩ := refuses ⟨done, after, ran⟩
      cases found
      have renames := (each ("name", .string "b") (by simp)).2.1 rfl
      simp [noted] at renames

end SignalExchange
