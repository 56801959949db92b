import SignalExchange.Edit.Surface
import SignalExchange.Proofs.Arguments.Parse
import SignalExchange.Proofs.Collab.Conformance
import SignalExchange.Proofs.Edit.Resolve
import SignalExchange.Proofs.Text.Integer

/-! The values that flags give to fields.

A flag reads its values at the type of its field, or for a list at the type of the items. A list in
a list has no such type to be read at: its items are read as texts, which it never accepts.
-/

set_option autoImplicit false

namespace SignalExchange

namespace FieldType

/-- A list whose items are lists. -/
def NestsLists (type : FieldType) : Prop :=
  ∃ items inner, type.required = .list items ∧ items.required = .list inner

variable {type : FieldType} {word : String} {value : Json}

theorem accepts_of_read (single : ∀ inner, type.required ≠ .optional inner)
    (scalar : ∀ items, type.required ≠ .list items)
    (read : type.valueKind.read word = .ok value) : type.Accepts value := by
  apply accepts_of_required
  unfold valueKind at read
  -- Words are read at the type behind an optional.
  cases required : type.required with
  | text =>
    rw [required] at read
    cases read
    exact text_accepts_iff.2 ⟨word, rfl⟩
  | integer =>
    rw [required] at read
    obtain ⟨n, reads, rfl⟩ := Except.map_eq_ok.1 read
    exact integer_accepts_iff.2 ⟨n, rfl, Integer.inRange_of_read (Except.mapError_eq_ok.1 reads)⟩
  | number =>
    simp only [required, ValueKind.read] at read
    split at read
    · cases read
      rfl
    · cases read
    · cases read
  | boolean =>
    simp only [required, ValueKind.read] at read
    split at read
    · cases read
      exact boolean_accepts_iff.2 ⟨true, rfl⟩
    · split at read
      · cases read
        exact boolean_accepts_iff.2 ⟨false, rfl⟩
      · cases read
  | choice among =>
    simp only [required, ValueKind.read] at read
    split at read
    next member =>
      cases read
      exact choice_accepts_iff.2 ⟨word, member, rfl⟩
    next => cases read
  | optional inner => exact absurd required (single inner)
  | list items => exact absurd required (scalar items)

theorem not_accepts_of_read {items : FieldType} (list : type.required = .list items)
    (read : type.valueKind.read word = .ok value) : ¬type.Accepts value := by
  rw [valueKind, list] at read
  cases read
  intro fits
  have accepts := required_accepts fits nofun
  rw [list] at accepts
  obtain ⟨values, same, -⟩ := list_accepts_iff.1 accepts
  cases same

theorem all_accept_iff (single : ∀ inner, type.required ≠ .optional inner) {values : List Json}
    (some : values ≠ [])
    (read : ∀ value ∈ values, ∃ word, type.valueKind.read word = .ok value) :
    (∀ value ∈ values, type.Accepts value) ↔ ∀ items, type.required ≠ .list items := by
  constructor
  · intro fits items list
    obtain ⟨value, member⟩ := List.exists_mem_of_ne_nil values some
    obtain ⟨word, reads⟩ := read value member
    exact not_accepts_of_read list reads (fits value member)
  · intro scalar value member
    obtain ⟨word, reads⟩ := read value member
    exact accepts_of_read single scalar reads

theorem not_nestsLists_iff {items : FieldType} (list : type.required = .list items) :
    ¬type.NestsLists ↔ ∀ inner, items.required ≠ .list inner := by
  constructor
  · intro flat inner nested
    exact flat ⟨items, inner, list, nested⟩
  · rintro scalar ⟨others, inner, same, nested⟩
    cases list.symm.trans same
    exact scalar inner nested

end FieldType

namespace EditableField

variable {field : EditableField}

theorem argument_id : field.argument.id = field.name := by
  unfold argument
  split <;> rfl

theorem argument_long : field.argument.long = some field.flag := by
  unfold argument
  split <;> rfl

theorem argument_least : field.argument.least = 1 := by
  unfold argument
  split <;> rfl

theorem argument_action : field.argument.action ≠ .setTrue := by
  unfold argument
  split <;> nofun

theorem argument_kind_of_list {items : FieldType} (list : field.type.required = .list items) :
    field.argument.kind = items.valueKind := by
  rw [argument, list]

theorem argument_kind_of_scalar (single : ∀ inner, field.type.required ≠ .optional inner)
    (scalar : ∀ items, field.type.required ≠ .list items) :
    field.argument.kind = field.type.valueKind := by
  unfold argument
  split
  next items list => exact absurd list (scalar items)
  next =>
    simp only [FieldType.valueKind, FieldType.required_required single]

end EditableField

/-- Exactly one item has a key that stands once. -/
theorem filter_of_distinct {α β : Type} [DecidableEq β] {key : α → Option β} {items : List α}
    (distinct : (items.filterMap key).Nodup) {item : α} (member : item ∈ items) {name : β}
    (named : key item = some name) :
    items.filter (fun other => key other = some name) = [item] := by
  induction items with
  | nil => cases member
  | cons head rest ih =>
    by_cases here : key head = some name
    · rw [List.filterMap_cons_some here, List.nodup_cons] at distinct
      have others : rest.filter (fun other => key other = some name) = [] :=
        List.filter_eq_nil_iff.2 fun other inRest same =>
          distinct.1 (List.mem_filterMap.2 ⟨other, inRest, of_decide_eq_true same⟩)
      rw [List.filter_cons, if_pos (by simp [here]), others]
      rcases List.mem_cons.1 member with rfl | inRest
      · rfl
      · exact absurd (List.mem_filterMap.2 ⟨item, inRest, named⟩) distinct.1
    · have inRest : item ∈ rest := by
        rcases List.mem_cons.1 member with rfl | inRest
        · exact absurd named here
        · exact inRest
      rw [List.filter_cons, if_neg (by simp [here])]
      exact ih (distinct.sublist ((List.sublist_cons_self head rest).filterMap key)) inRest

def Command.longs (command : Command) : List String := command.allArguments.filterMap (·.long)

namespace Surface

theorem build_eq_ok {api : String} {fields : List EditableField} {surface : Surface} :
    build api fields = .ok surface ↔
      (∀ field ∈ fields, ¬clashes reserved field) ∧
        surface = ⟨api, fields, commandFor api fields⟩ := by
  unfold build
  cases taken : fields.find? (clashes reserved) with
  | some field =>
    have clash := List.find?_some taken
    refine iff_of_false (fun failed => nomatch failed) fun free => ?_
    exact free.1 field (List.mem_of_find?_eq_some taken) clash
  | none =>
    have free : ∀ field ∈ fields, ¬clashes reserved field := by
      simpa using List.find?_eq_none.1 taken
    constructor
    · intro done
      exact ⟨free, (Except.ok.inj done).symm⟩
    · rintro ⟨-, rfl⟩
      rfl

theorem avoids_eq_ok {surface : Surface} {names : List String} :
    surface.avoids names = .ok () ↔ ∀ field ∈ surface.fields, ¬clashes names field := by
  unfold avoids
  cases taken : surface.fields.find? (clashes names) with
  | some field =>
    have clash := List.find?_some taken
    refine iff_of_false (fun failed => nomatch failed) fun free => ?_
    exact free field (List.mem_of_find?_eq_some taken) clash
  | none => simpa using List.find?_eq_none.1 taken

variable {api : String} {fields : List EditableField}

/-- The arguments that every edit command has. -/
def sharedArguments : List Argument := fixedArguments ++ [Argument.helpSwitch]

theorem allArguments_commandFor : (commandFor api fields).allArguments.Perm
    (fields.map (·.argument) ++ sharedArguments) := by
  rw [Command.allArguments, commandFor, sharedArguments, List.append_assoc]
  exact List.perm_append_comm_assoc _ _ _

theorem mem_allArguments {field : EditableField} (member : field ∈ fields) :
    field.argument ∈ (commandFor api fields).allArguments :=
  allArguments_commandFor.mem_iff.2 (List.mem_append_left _ (List.mem_map_of_mem member))

theorem argumentIds_commandFor : ((commandFor api fields).allArguments.map (·.id)).Perm
    (fields.map (·.name) ++ sharedArguments.map (·.id)) := by
  have names : (fields.map (·.argument)).map (·.id) = fields.map (·.name) := by
    rw [List.map_map]
    exact List.map_congr_left fun field _ => EditableField.argument_id
  rw [← names, ← List.map_append]
  exact allArguments_commandFor.map _

theorem longs_commandFor : (commandFor api fields).longs.Perm
    (fields.map (·.flag) ++ sharedArguments.filterMap (·.long)) := by
  have flags : (fields.map (·.argument)).filterMap (·.long) = fields.map (·.flag) := by
    rw [List.filterMap_map, ← List.filterMap_eq_map]
    exact List.filterMap_congr fun field _ => EditableField.argument_long
  rw [← flags, ← List.filterMap_append]
  exact allArguments_commandFor.filterMap _

section

variable (free : ∀ field ∈ fields, ¬clashes reserved field)

include free

/-- Reserved names that differ are kept apart from those that the fields have. -/
theorem nodup_append_reserved {key : EditableField → String} {shared : List String}
    (own : (fields.map key).Nodup) (apart : shared.Nodup)
    (within : ∀ name ∈ shared, name ∈ reserved)
    (clash : ∀ field, key field ∈ reserved → clashes reserved field) :
    (fields.map key ++ shared).Nodup := by
  refine List.nodup_append.2 ⟨own, apart, ?_⟩
  rintro _ isOwn name isShared rfl
  obtain ⟨field, member, rfl⟩ := List.mem_map.1 isOwn
  exact free field member (clash field (within _ isShared))

theorem nodup_argumentIds (names : (fields.map (·.name)).Nodup) :
    ((commandFor api fields).allArguments.map (·.id)).Nodup :=
  argumentIds_commandFor.nodup_iff.2 (nodup_append_reserved free names (by decide) (by decide)
    fun field taken => by simp [clashes, taken])

theorem nodup_longs (flags : (fields.map (·.flag)).Nodup) :
    (commandFor api fields).longs.Nodup :=
  longs_commandFor.nodup_iff.2 (nodup_append_reserved free flags (by decide) (by decide)
    fun field taken => by simp [clashes, taken])

theorem argument_of_name (names : (fields.map (·.name)).Nodup) {field : EditableField}
    (member : field ∈ fields) {argument : Argument}
    (inCommand : argument ∈ (commandFor api fields).allArguments)
    (same : argument.id = field.name) : argument = field.argument :=
  List.inj_on_of_nodup_map (nodup_argumentIds free names) inCommand (mem_allArguments member)
    (same.trans EditableField.argument_id.symm)

end

theorem read_of_holds (free : ∀ field ∈ fields, ¬clashes reserved field)
    (names : (fields.map (·.name)).Nodup) {field : EditableField} (member : field ∈ fields)
    {values : List Json} (holds : (commandFor api fields).Holds field.name values) :
    values ≠ [] ∧ ∀ value ∈ values, ∃ word, field.argument.kind.read word = .ok value := by
  have only := @argument_of_name api fields free names field member
  constructor
  · rcases holds.given with some | ⟨argument, inCommand, same, bare⟩
    · exact some
    · rw [only inCommand same, EditableField.argument_least] at bare
      cases bare
  · intro value inValues
    obtain ⟨argument, inCommand, same, gives⟩ := holds.brought value inValues
    rw [only inCommand same] at gives
    rcases gives with ⟨switch, -⟩ | read
    · exact absurd switch EditableField.argument_action
    · exact read

theorem fieldValue?_accepts_iff {field : EditableField}
    (formed : field.type.wellFormed field.name false = .ok ()) {found : Matches}
    (held : ∀ values, found.all? field.name = some values → values ≠ [] ∧
      ∀ value ∈ values, ∃ word, field.argument.kind.read word = .ok value)
    {value : Json} (given : fieldValue? found field = some value) :
    field.type.Accepts value ↔ ¬field.type.NestsLists := by
  have single := FieldType.required_ne_optional formed
  unfold fieldValue? at given
  split at given
  next items list =>
    obtain ⟨values, all, rfl⟩ := Option.map_eq_some_iff.1 given
    obtain ⟨some, read⟩ := held values all
    obtain ⟨inside, formedItems⟩ := FieldType.items_wellFormed formed list
    rw [EditableField.argument_kind_of_list list] at read
    rw [FieldType.accepts_array_iff list, FieldType.not_nestsLists_iff list]
    exact FieldType.all_accept_iff (FieldType.required_ne_optional formedItems) some read
  next scalar =>
    obtain ⟨values, all, first⟩ := Option.bind_eq_some_iff.1 given
    obtain ⟨-, read⟩ := held values all
    rw [EditableField.argument_kind_of_scalar single scalar] at read
    obtain ⟨word, reads⟩ := read value (List.mem_of_head? first)
    refine iff_of_true (FieldType.accepts_of_read single scalar reads) ?_
    rintro ⟨items, -, list, -⟩
    exact scalar items list

theorem mem_fields_editArgs {surface : Surface} {found : Matches} {args : EditArgs}
    (given : surface.editArgs found = .ok args) :
    ∀ entry ∈ args.fields, ∃ field ∈ surface.fields,
      field.name = entry.1 ∧ fieldValue? found field = some entry.2 := by
  unfold editArgs at given
  split at given
  · cases given
  · cases given
    intro entry member
    obtain ⟨field, inFields, named⟩ := List.mem_filterMap.1 member
    obtain ⟨value, held, rfl⟩ := Option.map_eq_some_iff.1 named
    exact ⟨field, inFields, rfl, held⟩

end Surface

namespace Surface

/-- A value that the command line gave to a field is accepted by the type of the field, and by any
record that it is assigned to, exactly when the type nests no lists. -/
theorem given_accepts_iff {declared api : String} {own : List Field}
    {fields : List EditableField} {surface : Surface} {words : List String} {found : Matches}
    {args : EditArgs} (described : (Schema.ofFields declared own).editableFields = .ok fields)
    (built : build api fields = .ok surface) (parsed : surface.command.parse words = .ok found)
    (given : surface.editArgs found = .ok args) :
    ∀ entry ∈ args.fields, ∃ field ∈ fields, field.name = entry.1 ∧
      (field.type.Accepts entry.2 ↔ ¬field.type.NestsLists) ∧
      ∀ collab : Collab, (∃ message,
        collab.assign (Schema.ofFields declared own) entry.1 entry.2 =
          .error (.invalidValue entry.1 message)) ↔ field.type.NestsLists := by
  obtain ⟨names, apart⟩ := Schema.editable_names described
  obtain ⟨free, rfl⟩ := build_eq_ok.1 built
  intro entry member
  obtain ⟨field, inFields, named, value⟩ := mem_fields_editArgs given entry member
  obtain ⟨schemaField, there, sameType, accepted⟩ := Schema.find?_of_editable described inFields
  have sameName := (Schema.find?_eq_some_iff (Schema.editableFields_eq_ok.1 described).2.1).1 there
  have formed : field.type.wellFormed field.name false = .ok () := by
    rw [← sameType, ← sameName.2]
    exact accepted.typed
  have fits := fieldValue?_accepts_iff formed (fun values all =>
    read_of_holds free names inFields (Command.holds_of_all? parsed all)) value
  refine ⟨field, inFields, named, fits, fun collab => ?_⟩
  rw [← named, Collab.assign_eq_invalidValue_iff collab there (apart field inFields), sameType,
    fits, not_not]

/-- One field besides the common ones. -/
def rowsOf (type : FieldType) : Schema := .ofFields "demo" [{ name := "rows", type := type }]

/-- The items of a list of integers are read as integers, at the commas. -/
theorem integers_given : ∃ fields surface found args,
    (rowsOf (.list .integer)).editableFields = .ok fields ∧ build "demo" fields = .ok surface ∧
    surface.command.parse ["c", "--rows", "1,2"] = .ok found ∧
    surface.editArgs found = .ok args ∧
    args.fields = [("rows", .array [.integer 1, .integer 2])] ∧
    ∀ entry ∈ args.fields, ∃ field ∈ fields, field.name = entry.1 ∧
      (field.type.Accepts entry.2 ↔ ¬field.type.NestsLists) ∧
      ∀ collab : Collab, (∃ message, collab.assign (rowsOf (.list .integer)) entry.1 entry.2 =
        .error (.invalidValue entry.1 message)) ↔ field.type.NestsLists := by
  have run : ∃ fields surface found args,
      (rowsOf (.list .integer)).editableFields = .ok fields ∧ build "demo" fields = .ok surface ∧
      surface.command.parse ["c", "--rows", "1,2"] = .ok found ∧
      surface.editArgs found = .ok args ∧
      args.fields = [("rows", .array [.integer 1, .integer 2])] :=
    ⟨_, _, .mk [("collab_name", [.string "c"]), ("rows", [.integer 1, .integer 2])] none, _,
      rfl, rfl, rfl, rfl, rfl⟩
  obtain ⟨fields, surface, found, args, described, built, parsed, given, values⟩ := run
  exact ⟨fields, surface, found, args, described, built, parsed, given, values,
    given_accepts_iff described built parsed given⟩

/-- A list of lists is given a list of texts, which it does not accept, so no record takes it. A
list of lists in a document would be accepted. -/
theorem texts_given_to_lists : ∃ fields surface found args,
    (rowsOf (.list (.list .text))).editableFields = .ok fields ∧
    build "demo" fields = .ok surface ∧ surface.command.parse ["c", "--rows", "a"] = .ok found ∧
    surface.editArgs found = .ok args ∧ args.fields = [("rows", .array [.string "a"])] ∧
    ¬(FieldType.list (.list .text)).Accepts (.array [.string "a"]) ∧
    (∀ collab : Collab, collab.assign (rowsOf (.list (.list .text))) "rows"
      (.array [.string "a"]) = .error (.invalidValue "rows" "expected str,..., got \"a\"")) ∧
    EditArgs.Permitted fields ("rows", .array [.array [.string "a"]]) := by
  refine ⟨_, _, .mk [("collab_name", [.string "c"]), ("rows", [.string "a"])] none, _,
    rfl, rfl, rfl, rfl, rfl, nofun, fun _ => rfl, ?_⟩
  exact .inr (.inr ⟨_, List.mem_singleton.2 rfl, rfl, rfl⟩)

end Surface

end SignalExchange
