import SignalExchange.Proofs.Database.RecordView

/-! Databases whose records conform to the schemas of their exchanges.

A schema is storable when none of its values is a double and its lists are not nested too deep. A
record that is made under such a schema is read back from its row as it was written, so the rules
for records find what they wrote, and write what conforms again.
-/

set_option autoImplicit false

namespace SignalExchange

open Call

namespace Json

theorem exactEntries_iff {entries : List (String × Json)} :
    ExactEntries entries ↔ ∀ entry ∈ entries, entry.2.Exact := by
  induction entries with
  | nil => simp [ExactEntries]
  | cons entry rest ih => simp [ExactEntries, ih]

theorem entriesDepth_le_iff {entries : List (String × Json)} {levels : Nat} :
    entriesDepth entries ≤ levels ↔ ∀ entry ∈ entries, entry.2.depth ≤ levels := by
  induction entries with
  | nil => simp [entriesDepth]
  | cons entry rest ih => simp [entriesDepth, ih]

theorem exactItems_iff {items : List Json} : ExactItems items ↔ ∀ item ∈ items, item.Exact := by
  induction items with
  | nil => simp [ExactItems]
  | cons item rest ih => simp [ExactItems, ih]

theorem itemsDepth_le_iff {items : List Json} {levels : Nat} :
    itemsDepth items ≤ levels ↔ ∀ item ∈ items, item.depth ≤ levels := by
  induction items with
  | nil => simp [itemsDepth]
  | cons item rest ih => simp [itemsDepth, ih]

end Json

namespace FieldType

/-- No value of the type holds a double. -/
def isExact : FieldType → Bool
  | .number => false
  | .optional inner => inner.isExact
  | .list items => items.isExact
  | _ => true

/-- How deep lists stand inside each other in the values of the type. -/
def levels : FieldType → Nat
  | .optional inner => inner.levels
  | .list items => items.levels + 1
  | _ => 0

theorem plain_of_accepts {type : FieldType} (exact : type.isExact = true) {value : Json}
    (accepts : type.Accepts value) : value.Exact ∧ value.depth ≤ type.levels := by
  induction type generalizing value with
  | text =>
    obtain ⟨word, rfl⟩ := text_accepts_iff.1 accepts
    exact ⟨trivial, Nat.le_refl 0⟩
  | integer =>
    obtain ⟨n, rfl, least, greatest⟩ := integer_accepts_iff.1 accepts
    exact ⟨⟨least, greatest.trans (by decide)⟩, Nat.le_refl 0⟩
  | number => cases exact
  | boolean =>
    obtain ⟨flag, rfl⟩ := boolean_accepts_iff.1 accepts
    exact ⟨trivial, Nat.le_refl 0⟩
  | choice among =>
    obtain ⟨word, -, rfl⟩ := choice_accepts_iff.1 accepts
    exact ⟨trivial, Nat.le_refl 0⟩
  | optional inner ih =>
    rcases optional_accepts_iff.1 accepts with rfl | fits
    · exact ⟨trivial, Nat.zero_le _⟩
    · exact ih exact fits
  | list items ih =>
    obtain ⟨values, rfl, each⟩ := list_accepts_iff.1 accepts
    have plain (item : Json) (member : item ∈ values) := ih exact (each item member)
    exact ⟨Json.exactItems_iff.2 fun item member => (plain item member).1,
      Nat.succ_le_succ (Json.itemsDepth_le_iff.2 fun item member => (plain item member).2)⟩

end FieldType

def Storable (own : List Field) : Prop :=
  ∀ field ∈ own, field.type.isExact = true ∧ field.type.levels + 1 < 128

instance (own : List Field) : Decidable (Storable own) := by
  unfold Storable
  infer_instance

theorem Storable.plain_of_find? {api : String} {own : List Field} (storable : Storable own)
    {key : String} {field : Field} (found : (Schema.ofFields api own).find? key = some field)
    (notCommon : key ∉ commonNames) {value : Json} (accepts : field.type.Accepts value) :
    value.Exact ∧ value.depth ≤ 126 := by
  unfold Schema.find? at found
  have named : field.name = key := by simpa using List.find?_some found
  have notShared : field ∉ commonFields := fun shared =>
    notCommon (named ▸ List.mem_map_of_mem shared)
  have inOwn : field ∈ own :=
    (List.mem_append.1 (List.mem_of_find?_eq_some found)).resolve_left notShared
  obtain ⟨exact, shallow⟩ := storable field inOwn
  obtain ⟨exactValue, depth⟩ := FieldType.plain_of_accepts exact accepts
  exact ⟨exactValue, by omega⟩

namespace Collab

variable {api : String} {own : List Field} {collab after : Collab}

theorem plain_iff : collab.Plain ↔
    ∀ entry ∈ collab.attributes.entries, entry.2.Exact ∧ entry.2.depth ≤ 126 := by
  have shallow : Json.entriesDepth collab.attributes.entries + 1 < 128 ↔
      ∀ entry ∈ collab.attributes.entries, entry.2.depth ≤ 126 := by
    rw [← Json.entriesDepth_le_iff]
    omega
  constructor
  · exact fun plain entry member => ⟨Json.exactEntries_iff.1 plain.noDoubles entry member,
      shallow.1 plain.shallow entry member⟩
  · exact fun each => ⟨Json.exactEntries_iff.2 fun entry member => (each entry member).1,
      shallow.2 fun entry member => (each entry member).2⟩

variable (storable : Storable own)

include storable

theorem Plain.assign (plain : collab.Plain) {field : String} {value : Json}
    (assigned : collab.assign (Schema.ofFields api own) field value = .ok after) :
    after.Plain := by
  obtain ⟨_, found, accepts, ⟨-, enabled, rfl⟩ | ⟨notCommon, rfl⟩⟩ := assign_cases assigned
  · exact ⟨plain.noDoubles, plain.shallow⟩
  · rw [plain_iff] at plain ⊢
    intro entry member
    rcases Ascending.mem_insert member with rfl | inAttributes
    · exact storable.plain_of_find? found notCommon accepts
    · exact plain entry inAttributes

theorem Plain.assignAll (plain : collab.Plain) {edit : EditSet}
    (assigned : collab.assignAll (Schema.ofFields api own) edit = .ok after) : after.Plain :=
  Except.foldlM_preserves (fun _ _ _ before step => before.assign storable step) plain assigned

theorem plain_of_construct {edit : EditSet}
    (constructed : construct (Schema.ofFields api own) edit = .ok collab) : collab.Plain := by
  obtain ⟨name, -, run⟩ := construct_cases constructed
  have empty : Plain ⟨name, api, true, .empty⟩ := plain_iff.2 nofun
  refine Except.foldlM_preserves (fun before field next plain started => ?_) empty run
  obtain ⟨value, assigned⟩ := assign_of_startField started
  exact plain.assign storable assigned

end Collab

theorem ResolvedEdit.within_of_storable {api : String} {own : List Field}
    (storable : Storable own) (edit : ResolvedEdit) :
    edit.Within Database.view.fits (.ofFields api own) := by
  intro held done fits verdict
  cases held with
  | none =>
    rw [ResolvedEdit.verdict] at verdict
    split at verdict
    · obtain ⟨collab, constructed, rfl⟩ := Except.map_eq_ok.1 verdict
      exact ⟨Collab.construct_formed constructed, Collab.plain_of_construct storable constructed⟩
    · cases verdict
  | some existing =>
    rw [ResolvedEdit.verdict] at verdict
    split at verdict
    · cases verdict
    · split at verdict
      · obtain ⟨collab, assigned, rfl⟩ := Except.map_eq_ok.1 verdict
        obtain ⟨formed, plain⟩ := fits existing rfl
        exact ⟨(Collab.assignAll_kept assigned).formed formed, plain.assignAll storable assigned⟩
      · cases verdict

section

variable {schemas : String → Option (List Field)}
  (storable : ∀ api own, schemas api = some own → Storable own)

include storable

theorem RecordCommand.within_of_storable {command : RecordCommand}
    (under : command.Under schemas) : command.Within Database.view.fits := by
  cases command with
  | apply api own edit => exact edit.within_of_storable (storable api own under)
  | importAs name api own fields =>
    exact ResolvedEdit.within_of_storable (storable api own under) _
  | remove => trivial

theorem History.within_of_storable {σ : Type} {store : CollabStore (StateM σ)}
    {log : List (RecordCommand × Except ConfigError Change)} {first state : σ}
    (history : History store schemas log first state) :
    ∀ entry ∈ log, entry.1.Within Database.view.fits := by
  induction history with
  | start => exact nofun
  | step _ under _ ih =>
    rw [List.forall_mem_append, List.forall_mem_singleton]
    exact ⟨ih, RecordCommand.within_of_storable storable under⟩

end

namespace Database

/-- The rows are those of records that conform to the schemas of their exchanges. -/
def Conforming (schemas : String → Option (List Field)) (database : Database) : Prop :=
  view.ready database ∧ AllConform schemas (view.held database)

section

variable {schemas : String → Option (List Field)} {database after : Database}

theorem conforming_of_noRecords (none : database.collabs = some []) :
    database.Conforming schemas := by
  have keeps : database.Keeps [] := ⟨none, Records.sound_nil⟩
  refine ⟨⟨_, keeps⟩, ?_⟩
  rw [show view.held database = _ from keeps.held]
  exact nofun

theorem Conforming.elsewhere (conforming : database.Conforming schemas)
    (same : after.collabs = database.collabs) : after.Conforming schemas := by
  obtain ⟨⟨records, keeps⟩, all⟩ := conforming
  have still : after.Keeps records := ⟨same.trans keeps.1, keeps.2⟩
  refine ⟨⟨records, still⟩, ?_⟩
  rw [show view.held database = _ from keeps.held] at all
  rwa [show view.held after = _ from still.held]

variable (accepted : ∀ api own, schemas api = some own →
    ∃ fields, (Schema.ofFields api own).editableFields = .ok fields)

include accepted

theorem conforming_of_performed {command : RecordCommand} {result : Except ConfigError Change}
    (conforming : database.Conforming schemas)
    (performed : view.Performed schemas command result database after) :
    after.Conforming schemas := by
  obtain ⟨_, ⟨ready, rfl⟩, performs⟩ := performed
  exact ⟨ready, performs.allConform accepted conforming.2⟩

theorem conforming_apply (storable : ∀ api own, schemas api = some own → Storable own)
    {api : String} {own : List Field} (declared : schemas api = some own) (edit : ResolvedEdit) :
    Maintains (Conforming schemas) (collabStore.apply (Schema.ofFields api own) edit) :=
  fun _ conforming => conforming_of_performed accepted conforming
    (performs_apply collabStore_faithful conforming.1 declared
      (edit.within_of_storable (storable api own declared)) rfl)

theorem conforming_importAs (storable : ∀ api own, schemas api = some own → Storable own)
    {api : String} {own : List Field} (declared : schemas api = some own) (name : String)
    (fields : EditSet) :
    Maintains (Conforming schemas)
      (collabStore.importAs name (Schema.ofFields api own) fields) :=
  fun _ conforming => conforming_of_performed accepted conforming
    (performs_importAs collabStore_faithful conforming.1 declared
      (ResolvedEdit.within_of_storable (storable api own declared) _) rfl)

theorem conforming_remove (name : String) :
    Maintains (Conforming schemas) (collabStore.remove name) :=
  fun _ conforming => conforming_of_performed accepted conforming
    (performs_remove collabStore_faithful conforming.1 rfl)

end

end Database

end SignalExchange
