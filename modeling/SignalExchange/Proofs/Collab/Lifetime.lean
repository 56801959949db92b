import SignalExchange.Proofs.Collab.Commands
import SignalExchange.Proofs.Collab.Conformance

/-! The life of a record in any store.

Every record is constructed under the schema of its exchange and edited under the same schema, so
it conforms to that schema until it is deleted.
-/

set_option autoImplicit false

namespace SignalExchange

open Call

/-- Each record stands under its name and conforms to the schema of its exchange. -/
def AllConform (schemas : String → Option (List Field)) (held : String → Option Collab) : Prop :=
  ∀ name collab, held name = some collab → collab.name = name ∧
    ∃ own, schemas collab.api = some own ∧ collab.Conforms (Schema.ofFields collab.api own)

section

variable {schemas : String → Option (List Field)} {held next : String → Option Collab}
  {command : RecordCommand} {result : Except ConfigError Change}

theorem AllConform.written (all : AllConform schemas held) {api : String} {own : List Field}
    (declared : schemas api = some own) {collab : Collab}
    (conforms : collab.Conforms (Schema.ofFields api own)) :
    AllConform schemas ((Change.written collab).onto held) := by
  intro name other found
  by_cases same : collab.name = name
  · subst same
    cases (Change.written_onto_self collab).symm.trans found
    have bound : collab.api = api := conforms.api
    rw [bound]
    exact ⟨rfl, own, declared, conforms⟩
  · rw [Change.onto_of_ne (.written collab) same] at found
    exact all name other found

theorem AllConform.deleted (all : AllConform schemas held) (collab : Collab) :
    AllConform schemas ((Change.deleted collab).onto held) := by
  intro name other found
  by_cases same : collab.name = name
  · subst same
    cases (Change.deleted_onto_self collab).symm.trans found
  · rw [Change.onto_of_ne (.deleted collab) same] at found
    exact all name other found

theorem AllConform.conforms (all : AllConform schemas held) {name api : String}
    {own : List Field} {collab : Collab} (declared : schemas api = some own)
    (found : held name = some collab) (same : collab.api = api) :
    collab.Conforms (Schema.ofFields api own) := by
  obtain ⟨-, other, also, conforms⟩ := all name collab found
  subst same
  cases declared.symm.trans also
  exact conforms

theorem Performs.stays (performs : Performs schemas held command result next)
    (all : AllConform schemas held) {name : String} {collab : Collab}
    (found : held name = some collab)
    (spared : command = .remove name → ∃ error, result = .error error) :
    ∃ kept, next name = some kept ∧ kept.api = collab.api := by
  cases performs with
  | failed => exact ⟨collab, found, rfl⟩
  | @created _ _ _ _ fresh _ _ free =>
    have differs : fresh.name ≠ name := by
      intro same
      rw [same, found] at free
      cases free
    exact ⟨collab, (Change.onto_of_ne (.written fresh) differs).trans found, rfl⟩
  | @edited _ other _ _ _ existing edited _ there _ assigned =>
    -- The edited record stands under its own name, so it is this one or it is another's.
    have kept := Collab.assignAll_kept assigned
    by_cases same : edited.name = name
    · have named := (all other existing there).1
      rw [← named, ← kept.name, same, found] at there
      cases there
      exact ⟨edited, same ▸ Change.written_onto_self edited, kept.api⟩
    · exact ⟨collab, (Change.onto_of_ne (.written edited) same).trans found, rfl⟩
  | @removed other removed there =>
    have differs : removed.name ≠ name := by
      intro same
      rw [(all other removed there).1] at same
      obtain ⟨error, refused⟩ := spared (congrArg _ same)
      cases refused
    exact ⟨collab, (Change.onto_of_ne (.deleted removed) differs).trans found, rfl⟩

variable (accepted : ∀ api own, schemas api = some own →
  ∃ fields, (Schema.ofFields api own).editableFields = .ok fields)

include accepted

theorem distinct_of_declared {api : String} {own : List Field}
    (declared : schemas api = some own) :
    ((Schema.ofFields api own).fields.map (·.name)).Nodup := by
  obtain ⟨fields, described⟩ := accepted api own declared
  exact (Schema.editableFields_eq_ok.1 described).2.1

theorem Performs.allConform (performs : Performs schemas held command result next)
    (all : AllConform schemas held) : AllConform schemas next := by
  cases performs with
  | failed => exact all
  | created declared constructed _ =>
    exact all.written declared
      (Collab.conforms_of_construct (distinct_of_declared accepted declared) constructed)
  | edited declared found same assigned =>
    have conforms := all.conforms declared found same
    exact all.written declared
      (conforms.assignAll (distinct_of_declared accepted declared) assigned)
  | removed found => exact all.deleted _

end

/-- Commands performed one after another, each with its result. -/
inductive History {σ : Type} (store : CollabStore (StateM σ))
    (schemas : String → Option (List Field)) :
    List (RecordCommand × Except ConfigError Change) → σ → σ → Prop where
  | start (state : σ) : History store schemas [] state state
  | step {log : List (RecordCommand × Except ConfigError Change)} {first state after : σ}
      {command : RecordCommand} {result : Except ConfigError Change}
      (before : History store schemas log first state) (under : command.Under schemas)
      (ran : outcome (command.perform store) state = (result, after)) :
      History store schemas (log ++ [(command, result)]) first after

section

variable {σ : Type} {store : CollabStore (StateM σ)} {view : RecordView σ}
  (faithful : store.Faithful view) {schemas : String → Option (List Field)}
  (accepted : ∀ api own, schemas api = some own →
    ∃ fields, (Schema.ofFields api own).editableFields = .ok fields)

include faithful accepted

theorem History.allConform {log : List (RecordCommand × Except ConfigError Change)}
    {first state : σ} (history : History store schemas log first state)
    (within : ∀ entry ∈ log, entry.1.Within view.fits) (ready : view.ready first)
    (all : AllConform schemas (view.held first)) :
    view.ready state ∧ AllConform schemas (view.held state) := by
  induction history with
  | start => exact ⟨ready, all⟩
  | step _ under ran ih =>
    rw [List.forall_mem_append, List.forall_mem_singleton] at within
    obtain ⟨earlier, fits⟩ := within
    obtain ⟨here, before⟩ := ih earlier ready all
    obtain ⟨_, ⟨after, rfl⟩, performs⟩ := performs_of_outcome faithful here under fits ran
    exact ⟨after, performs.allConform accepted before⟩

theorem History.stays {log : List (RecordCommand × Except ConfigError Change)} {first state : σ}
    (history : History store schemas log first state)
    (within : ∀ entry ∈ log, entry.1.Within view.fits) (ready : view.ready first)
    (all : AllConform schemas (view.held first)) {name : String} {collab : Collab}
    (found : view.held first name = some collab)
    (spared : ∀ entry ∈ log, entry.1 = .remove name → ∃ error, entry.2 = .error error) :
    ∃ kept, view.held state name = some kept ∧ kept.api = collab.api := by
  -- Each step finds the record that the steps before it left, maybe edited.
  induction history with
  | start => exact ⟨collab, found, rfl⟩
  | step before under ran ih =>
    rw [List.forall_mem_append, List.forall_mem_singleton] at within spared
    obtain ⟨earlier, fits⟩ := within
    obtain ⟨middle, there, same⟩ := ih earlier ready all found spared.1
    obtain ⟨here, conform⟩ := before.allConform faithful accepted earlier ready all
    obtain ⟨_, ⟨_, rfl⟩, performs⟩ := performs_of_outcome faithful here under fits ran
    obtain ⟨kept, stays, also⟩ := performs.stays conform there spared.2
    exact ⟨kept, stays, also.trans same⟩

/-- From an empty store on, every record conforms to the schema of its exchange, and until it is
removed it keeps its exchange and its attributes. -/
theorem records_conform {log : List (RecordCommand × Except ConfigError Change)}
    {first state : σ} (ready : view.ready first) (empty : ∀ name, view.held first name = none)
    (history : History store schemas log first state)
    (within : ∀ entry ∈ log, entry.1.Within view.fits) :
    (∀ name collab, view.held state name = some collab → collab.name = name ∧
      ∃ own, schemas collab.api = some own ∧
        collab.Conforms (Schema.ofFields collab.api own)) ∧
    ∀ name collab, view.held state name = some collab → ∀ later last,
      History store schemas later state last →
      (∀ entry ∈ later, entry.1.Within view.fits) →
      (∀ entry ∈ later, entry.1 = .remove name → ∃ error, entry.2 = .error error) →
      ∃ kept, view.held last name = some kept ∧ kept.api = collab.api ∧
        kept.attributes.entries.map (·.1) = collab.attributes.entries.map (·.1) := by
  have nothing : AllConform schemas (view.held first) := fun name _ found =>
    nomatch (empty name).symm.trans found
  obtain ⟨here, all⟩ := history.allConform faithful accepted within ready nothing
  refine ⟨all, fun name collab found later last after withinToo spared => ?_⟩
  obtain ⟨kept, there, same⟩ := after.stays faithful accepted withinToo here all found spared
  obtain ⟨-, own, declared, conforms⟩ := all name collab found
  obtain ⟨-, allAfter⟩ := after.allConform faithful accepted withinToo here all
  have still := allAfter.conforms declared there same
  exact ⟨kept, there, same, still.keys_eq conforms⟩

end

/-! Records in memory -/

abbrev RecordTable := AscendingMap Collab

namespace RecordTable

def put (table : RecordTable) (collab : Collab) : RecordTable := table.insert collab.name collab

theorem find?_put (collab : Collab) (table : RecordTable) :
    (table.put collab).find? = (Change.written collab).onto table.find? := by
  funext name
  by_cases same : collab.name = name
  · subst same
    rw [Change.written_onto_self]
    exact AscendingMap.find?_insert_self
  · rw [Change.onto_of_ne (.written collab) same]
    exact AscendingMap.find?_insert_of_ne (Ne.symm same)

theorem find?_erase (collab : Collab) (table : RecordTable) :
    (table.erase collab.name).find? = (Change.deleted collab).onto table.find? := by
  funext name
  by_cases same : collab.name = name
  · subst same
    rw [Change.deleted_onto_self]
    exact AscendingMap.find?_erase_self
  · rw [Change.onto_of_ne (.deleted collab) same]
    exact AscendingMap.find?_erase_of_ne (Ne.symm same)

def store : CollabStore (StateM RecordTable) where
  find? name := do return (← get).find? name
  list := do return (← get).entries.map (·.2)
  create collab := do
    if ((← get).find? collab.name).isSome then
      throw (.engine (.repeatedKey Database.collabTable "name"))
    modify fun table => RecordTable.put table collab
  update collab := do
    if ((← get).find? collab.name).isNone then
      throw (.serialization ("Collab not found: " ++ collab.name))
    modify fun table => RecordTable.put table collab
  delete collab := do
    if ((← get).find? collab.name).isNone then return false
    modify fun table => table.erase collab.name
    return true

/-- Whatever is written to such a table is given back. -/
def view : RecordView RecordTable := .total AscendingMap.find?

theorem store_faithful : store.Faithful view := by
  constructor
  case find =>
    intro name state after result _ ran
    cases ran
    exact ⟨⟨trivial, rfl⟩, fun found same => (Except.ok.inj same).symm⟩
  case create =>
    intro collab state after result _ _ ran
    simp only [store, outcome_bind, outcome_get] at ran
    cases found : state.find? collab.name with
    | some other =>
      simp only [found, Option.isSome_some, if_true] at ran
      cases ran
      exact ⟨trivial, rfl⟩
    | none =>
      simp only [found, Option.isSome_none, Bool.false_eq_true, if_false] at ran
      cases ran
      exact ⟨found, trivial, find?_put collab state⟩
  case update =>
    intro collab state after result _ _ ran
    simp only [store, outcome_bind, outcome_get] at ran
    cases found : state.find? collab.name with
    | some other =>
      simp only [found, Option.isNone_some, Bool.false_eq_true, if_false] at ran
      cases ran
      have taken : state.find? collab.name ≠ none := found ▸ Option.some_ne_none other
      exact ⟨taken, trivial, find?_put collab state⟩
    | none =>
      simp only [found, Option.isNone_none, if_true] at ran
      cases ran
      exact ⟨trivial, rfl⟩
  case delete =>
    intro collab state after result _ ran
    simp only [store, outcome_bind, outcome_get] at ran
    cases found : state.find? collab.name with
    | some other =>
      simp only [found, Option.isNone_some, Bool.false_eq_true, if_false] at ran
      cases ran
      exact ⟨trivial, find?_erase collab state⟩
    | none =>
      simp only [found, Option.isNone_none, if_true] at ran
      cases ran
      exact ⟨trivial, rfl⟩

end RecordTable

/-- One exchange, whose records have a priority. -/
def ranked (api : String) : Option (List Field) :=
  if api = "demo" then some rankedFields else none

/-- An edit of a record that was created gives it another value, and nothing else. -/
theorem ranked_conforms :
    ∃ (first middle last : RecordTable) (collab kept : Collab),
      History RecordTable.store ranked [(editRanked true [("name", .string "a"),
        ("priority", .integer 1)], .ok (.written (rankedAt "a" 1)))] first middle ∧
      History RecordTable.store ranked
        [(editRanked false [("priority", .integer 2)], .ok (.written (rankedAt "a" 2)))] middle last ∧
      middle.find? "a" = some collab ∧ last.find? "a" = some kept ∧ kept ≠ collab ∧
      (∃ own, ranked collab.api = some own ∧
        collab.Conforms (Schema.ofFields collab.api own)) ∧
      kept.api = collab.api ∧
      kept.attributes.entries.map (·.1) = collab.attributes.entries.map (·.1) := by
  have accepted : ∀ api own, ranked api = some own →
      ∃ fields, (Schema.ofFields api own).editableFields = .ok fields := by
    intro api own declared
    unfold ranked at declared
    split at declared
    · cases declared
      exact ⟨_, rfl⟩
    · cases declared
  have created : outcome ((editRanked true [("name", .string "a"),
        ("priority", .integer 1)]).perform RecordTable.store) .empty =
      (.ok (.written (rankedAt "a" 1)), RecordTable.put .empty (rankedAt "a" 1)) := rfl
  have edited : outcome ((editRanked false [("priority", .integer 2)]).perform RecordTable.store)
        (RecordTable.put .empty (rankedAt "a" 1)) =
      (.ok (.written (rankedAt "a" 2)),
        (RecordTable.put .empty (rankedAt "a" 1)).put (rankedAt "a" 2)) := rfl
  have under (create : Bool) (entries : List (String × Json)) :
      (editRanked create entries).Under ranked := rfl
  have before := (History.start _).step (under _ _) created
  have after := (History.start _).step (under _ _) edited
  have within {log : List (RecordCommand × Except ConfigError Change)} :
      ∀ entry ∈ log, entry.1.Within RecordTable.view.fits := fun entry _ => entry.1.within_total
  obtain ⟨conform, lasting⟩ := records_conform RecordTable.store_faithful accepted trivial
    (fun _ => rfl) before within
  obtain ⟨-, conforms⟩ := conform "a" (rankedAt "a" 1) rfl
  obtain ⟨kept, there, same, keys⟩ := lasting "a" (rankedAt "a" 1) rfl _ _ after within (by
    intro entry member removes
    cases List.mem_singleton.1 member
    cases removes)
  cases there
  have differs : rankedAt "a" 2 ≠ rankedAt "a" 1 := by
    intro equal
    have values : some (Json.integer 2) = some (.integer 1) :=
      congrArg (·.attribute? "priority") equal
    cases values
  exact ⟨_, _, _, _, _, before, after, rfl, rfl, differs, conforms, same, keys⟩

end SignalExchange
