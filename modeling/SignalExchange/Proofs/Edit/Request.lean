import SignalExchange.Proofs.Edit.Spelling
import SignalExchange.Proofs.Schema.Flags

/-! Edits written on the command line.

Whatever an edit asks for can be written in words, in any order, and those words are matched to just
what it asks for.
-/

set_option autoImplicit false

namespace SignalExchange

namespace Surface

/-- The ways to say whether a record is enabled. -/
inductive Toggle where
  | enable
  | enableZero
  | enableOne
  | disable
  deriving DecidableEq

def Toggle.state : Toggle → Nat
  | .enable | .enableOne => 1
  | .enableZero | .disable => 0

inductive Switch where
  | create
  | document
  | toggle (toggle : Toggle)
  deriving DecidableEq

namespace Switch

def word : Switch → String
  | create => "--create"
  | document => "--json"
  | toggle .enable => "--enable"
  | toggle .enableZero => "--enable=0"
  | toggle .enableOne => "--enable=1"
  | toggle .disable => "--disable"

def argument : Switch → Argument
  | create => fixedArguments[1]
  | document => fixedArguments[4]
  | toggle .disable => fixedArguments[3]
  | toggle _ => fixedArguments[2]

def values : Switch → List Json
  | toggle .enable | toggle .enableOne => [.integer 1]
  | toggle .enableZero => [.integer 0]
  | _ => [.boolean true]

def all (create document : Bool) (toggle : Option Toggle) : List Switch :=
  (if create then [.create] else []) ++ (if document then [.document] else []) ++
    toggle.toList.map .toggle

end Switch

/-- A word of the command line and what it stands for. -/
inductive Piece where
  | subject (name : String)
  | switch (given : Switch)
  | flag (field : EditableField) (word : String)

namespace Piece

def word : Piece → String
  | subject name => name
  | switch given => given.word
  | flag field word => "--" ++ field.flag ++ "=" ++ word

def subject? : Piece → Option String
  | subject name => some name
  | _ => none

def switch? : Piece → Option Switch
  | switch given => some given
  | _ => none

def wordOf? (name : String) : Piece → Option String
  | flag field word => if field.name = name then some word else none
  | _ => none

end Piece

/-- What an edit asks for. -/
structure Request where
  name : String
  create : Bool
  document : Bool
  toggle : Option Toggle
  /-- The values of the fields that are chosen. -/
  value? : String → Option Json

namespace Request

def switches (request : Request) : List Switch :=
  Switch.all request.create request.document request.toggle

def args (request : Request) (fields : List EditableField) : EditArgs where
  subject := request.name
  create := request.create
  enable := request.toggle.map (·.state)
  isDocument := request.document
  fields := fields.filterMap fun field =>
    (request.value? field.name).map fun value => (field.name, value)

/-- The words of the flag of a field write the value that is chosen for it, if there is one. -/
def Writes (request : Request) (field : EditableField) (words : List String) : Prop :=
  match request.value? field.name with
  | some value => field.type.Written words value
  | none => words = []

/-- The pieces, in any order, write the request. -/
structure WrittenBy (request : Request) (fields : List EditableField) (pieces : List Piece) :
    Prop where
  subject : pieces.filterMap (·.subject?) = [request.name]
  plain : request.name.toList.head? ≠ some '-'
  switches : (pieces.filterMap (·.switch?)).Perm request.switches
  known : ∀ field word, .flag field word ∈ pieces → field ∈ fields
  chosen : ∀ field ∈ fields, request.Writes field (pieces.filterMap (·.wordOf? field.name))

end Request

namespace Switch

variable (create document : Bool) (toggle : Option Toggle)

theorem filter_create : (all create document toggle).filter (·.argument.id = createId) =
    if create then [.create] else [] := by
  cases create <;> cases document <;> rcases toggle with _ | _ | _ | _ | _ <;> rfl

theorem filter_document : (all create document toggle).filter (·.argument.id = documentId) =
    if document then [.document] else [] := by
  cases create <;> cases document <;> rcases toggle with _ | _ | _ | _ | _ <;> rfl

theorem filter_enable : (all create document toggle).filter (·.argument.id = enableId) =
    (toggle.toList.filter (· ≠ .disable)).map .toggle := by
  cases create <;> cases document <;> rcases toggle with _ | _ | _ | _ | _ <;> rfl

theorem filter_disable : (all create document toggle).filter (·.argument.id = disableId) =
    (toggle.toList.filter (· = .disable)).map .toggle := by
  cases create <;> cases document <;> rcases toggle with _ | _ | _ | _ | _ <;> rfl

theorem filter_short (id : String) :
    ((all create document toggle).filter (·.argument.id = id)).length ≤ 1 := by
  -- The toggles share two arguments, but only one toggle is given.
  have distinct : ((all create document toggle).map (·.argument.id)).Nodup := by
    cases create <;> cases document <;> rcases toggle with _ | _ | _ | _ | _ <;> decide
  have one := List.nodup_iff_count_le_one.1 distinct id
  rw [List.count_eq_countP, List.countP_map, List.countP_eq_length_filter] at one
  simpa [Function.comp_def, beq_eq_decide] using one

end Switch

def Piece.occurrence : Piece → Occurrence
  | subject name => ⟨name, fixedArguments[0], [.string name]⟩
  | switch given => ⟨given.word, given.argument, given.values⟩
  | flag field word =>
    ⟨"--" ++ field.flag ++ "=" ++ word, field.argument,
      (field.argument.split word).map field.valueOf⟩

def Piece.id (piece : Piece) : String := piece.occurrence.id

theorem Piece.occurrence_word (piece : Piece) : piece.occurrence.word = piece.word := by
  cases piece <;> rfl

section

variable {api : String} {fields : List EditableField}

theorem byLong?_fixed {long : String} {argument : Argument}
    (found : fixedArguments.find? (·.long = some long) = some argument) :
    (commandFor api fields).byLong? long = some argument := by
  rw [Command.byLong?, Command.allArguments, commandFor, List.append_assoc, List.find?_append,
    found, Option.some_or]

theorem positionals_commandFor :
    (commandFor api fields).positionals = [fixedArguments[0]] := by
  have flags : (fields.map (·.argument)).filter (·.isPositional) = [] := by
    refine List.filter_eq_nil_iff.2 fun argument member positional => ?_
    obtain ⟨field, -, rfl⟩ := List.mem_map.1 member
    simp [Argument.isPositional, EditableField.argument_long] at positional
  rw [Command.positionals, commandFor, List.filter_append, flags]
  rfl

theorem of_switch (given : Switch) :
    (Piece.switch given).occurrence.Of (commandFor api fields) := by
  have create : (commandFor api fields).byLong? "create" = some fixedArguments[1] :=
    byLong?_fixed rfl
  have enable : (commandFor api fields).byLong? "enable" = some fixedArguments[2] :=
    byLong?_fixed rfl
  have disable : (commandFor api fields).byLong? "disable" = some fixedArguments[3] :=
    byLong?_fixed rfl
  have document : (commandFor api fields).byLong? "json" = some fixedArguments[4] :=
    byLong?_fixed rfl
  rcases given with _ | _ | (_ | _ | _ | _)
  · exact .bare (by decide) create (by decide) (.inl rfl) ⟨rfl, .inl ⟨rfl, rfl⟩⟩
  · exact .bare (by decide) document (by decide) (.inl rfl) ⟨rfl, .inl ⟨rfl, rfl⟩⟩
  · exact .bare (by decide) enable (by decide) (.inr ⟨rfl, rfl⟩) ⟨rfl, .inr ⟨.inl rfl, rfl⟩⟩
  · exact @Occurrence.Of.attached _ _ "0" _ _ enable (by decide) rfl ⟨rfl, .inr ⟨.inl rfl, rfl⟩⟩
  · exact @Occurrence.Of.attached _ _ "1" _ _ enable (by decide) rfl ⟨rfl, .inr ⟨.inl rfl, rfl⟩⟩
  · exact .bare (by decide) disable (by decide) (.inl rfl) ⟨rfl, .inl ⟨rfl, rfl⟩⟩

/-- The fields of an accepted schema, none of which is in the way of the fixed arguments. -/
structure Offered (fields : List EditableField) : Prop where
  free : ∀ field ∈ fields, ¬clashes reserved field
  distinct : (fields.map (·.name)).Nodup
  named : ∀ field ∈ fields, isFieldName field.name = true
  /-- The group of the toggles has a name too. -/
  apart : ∀ field ∈ fields, field.name ≠ toggleGroup.id

theorem Offered.flags (offered : Offered fields) : (fields.map (·.flag)).Nodup := by
  have flags : fields.map (·.flag) = (fields.map (·.name)).map flagName := by
    rw [List.map_map]
    rfl
  rw [flags]
  exact nodup_map_flagName offered.distinct (List.forall_mem_map.2 offered.named)

theorem Offered.byLong? (offered : Offered fields) {field : EditableField}
    (member : field ∈ fields) :
    (commandFor api fields).byLong? field.flag = some field.argument := by
  have only := filter_of_distinct (@nodup_longs api _ offered.free offered.flags)
    (mem_allArguments member) EditableField.argument_long
  rw [Command.byLong?, ← List.head?_filter, only]
  rfl

theorem filter_eq_map {α β : Type} {p : α → Bool} {f : α → Option β} {g : β → α}
    {items : List α} (each : ∀ item ∈ items,
      (p item = true ∧ ∃ result, f item = some result ∧ g result = item) ∨
        (p item = false ∧ f item = none)) :
    items.filter p = (items.filterMap f).map g := by
  induction items with
  | nil => rfl
  | cons item rest ih =>
    rw [List.forall_mem_cons] at each
    rcases each.1 with ⟨taken, result, gives, back⟩ | ⟨left, nothing⟩
    · rw [List.filter_cons_of_pos taken, List.filterMap_cons_some gives, List.map_cons, back,
        ih each.2]
    · rw [List.filter_cons_of_neg (by simp [left]), List.filterMap_cons_none nothing, ih each.2]

theorem switch_id (given : Switch) :
    given.argument.id ∈ reserved ∧ given.argument.id ≠ subjectId := by
  rcases given with _ | _ | (_ | _ | _ | _) <;> decide

theorem Offered.notReserved (offered : Offered fields) {field : EditableField}
    (member : field ∈ fields) : field.name ∉ reserved := fun taken =>
  offered.free field member (by simp [clashes, taken])

theorem flag_id (field : EditableField) (word : String) :
    (Piece.flag field word).id = field.name := EditableField.argument_id

section

variable {request : Request} {pieces : List Piece} (offered : Offered fields)
  (written : request.WrittenBy fields pieces)

include offered written

theorem filter_subject : pieces.filter (·.id = subjectId) = [.subject request.name] := by
  rw [filter_eq_map (f := Piece.subject?) (g := .subject), written.subject, List.map_singleton]
  rintro (name | given | ⟨field, word⟩) member
  · exact .inl ⟨rfl, name, rfl, rfl⟩
  · exact .inr ⟨decide_eq_false (switch_id given).2, rfl⟩
  · refine .inr ⟨decide_eq_false fun same => ?_, rfl⟩
    rw [flag_id] at same
    exact offered.notReserved (written.known field word member) (same ▸ by decide)

theorem filter_switch {id : String} (isSwitch : id ∈ reserved ∧ id ≠ subjectId) :
    pieces.filter (·.id = id) =
      (request.switches.filter (·.argument.id = id)).map .switch := by
  have given : (pieces.filterMap (·.switch?)).filter (·.argument.id = id) =
      request.switches.filter (·.argument.id = id) := by
    have perm := written.switches.filter (·.argument.id = id)
    -- There is at most one, so the order is the same too.
    have one : (request.switches.filter (·.argument.id = id)).length ≤ 1 :=
      Switch.filter_short _ _ _ id
    generalize request.switches.filter (·.argument.id = id) = asked at perm one
    rcases asked with _ | ⟨only, _ | ⟨another, more⟩⟩
    · exact perm.eq_nil
    · exact List.perm_singleton.1 perm
    · simp at one
  rw [← given, List.filter_filterMap]
  apply filter_eq_map
  rintro (name | given | ⟨field, word⟩) member
  · exact .inr ⟨decide_eq_false isSwitch.2.symm, rfl⟩
  · by_cases same : given.argument.id = id
    · exact .inl ⟨decide_eq_true same, given, by simp [Piece.switch?, same], rfl⟩
    · exact .inr ⟨decide_eq_false same, by simp [Piece.switch?, same]⟩
  · refine .inr ⟨decide_eq_false fun same => ?_, rfl⟩
    rw [flag_id] at same
    exact offered.notReserved (written.known field word member) (same ▸ isSwitch.1)

theorem filter_flag {field : EditableField} (inFields : field ∈ fields) :
    pieces.filter (·.id = field.name) =
      (pieces.filterMap (·.wordOf? field.name)).map (.flag field) := by
  apply filter_eq_map
  rintro (name | given | ⟨other, word⟩) member
  · refine .inr ⟨decide_eq_false fun same => ?_, rfl⟩
    have inReserved : subjectId ∈ reserved := by decide
    exact offered.notReserved inFields (same ▸ inReserved)
  · refine .inr ⟨decide_eq_false fun same => ?_, rfl⟩
    exact offered.notReserved inFields (same ▸ (switch_id given).1)
  · by_cases same : other.name = field.name
    · have known := written.known other word member
      cases List.inj_on_of_nodup_map offered.distinct known inFields same
      exact .inl ⟨decide_eq_true (flag_id field word), word, by simp [Piece.wordOf?], rfl⟩
    · refine .inr ⟨decide_eq_false (flag_id other word ▸ same), by simp [Piece.wordOf?, same]⟩

omit offered in
theorem written_of_flag {field : EditableField} {word : String}
    (member : .flag field word ∈ pieces) : ∃ value, request.value? field.name = some value ∧
      field.type.Written (pieces.filterMap (·.wordOf? field.name)) value ∧
      word ∈ pieces.filterMap (·.wordOf? field.name) := by
  have given : word ∈ pieces.filterMap (·.wordOf? field.name) :=
    List.mem_filterMap.2 ⟨_, member, by simp [Piece.wordOf?]⟩
  have chosen := written.chosen field (written.known field word member)
  unfold Request.Writes at chosen
  split at chosen
  next value found => exact ⟨value, found, chosen, given⟩
  next =>
    rw [chosen] at given
    cases given

theorem of_piece {piece : Piece} (member : piece ∈ pieces) :
    piece.occurrence.Of (commandFor api fields) := by
  cases piece with
  | subject name =>
    have inNames : name ∈ pieces.filterMap (·.subject?) := List.mem_filterMap.2 ⟨_, member, rfl⟩
    rw [written.subject, List.mem_singleton] at inNames
    exact .placed positionals_commandFor rfl (inNames ▸ written.plain) ⟨rfl, .inr ⟨.inl rfl, rfl⟩⟩
  | switch given => exact of_switch given
  | flag field word =>
    have known := written.known field word member
    obtain ⟨value, -, writes, inWords⟩ := written_of_flag written member
    obtain ⟨-, reads, -⟩ := EditableField.read_of_written writes
    exact .attached (offered.byLong? known) (equals_notMem_flagName (offered.named field known))
      EditableField.argument_takesValue (EditableField.brings (reads word inWords))

theorem id_of_piece {piece : Piece} (member : piece ∈ pieces) :
    piece.id ∉ (commandFor api fields).groups.map (·.id) := by
  have apart : toggleGroup.id ∉ reserved := by decide
  intro inGroups
  have same : piece.id = toggleGroup.id := List.mem_singleton.1 inGroups
  cases piece with
  | subject name =>
    have inReserved : subjectId ∈ reserved := by decide
    exact apart (same ▸ inReserved)
  | switch given => exact apart (same ▸ (switch_id given).1)
  | flag field word =>
    exact offered.apart field (written.known field word member) (flag_id field word ▸ same)

theorem once_of_piece {piece : Piece} (member : piece ∈ pieces) :
    piece.occurrence.argument.action = .append ∨
      (pieces.filter (·.id = piece.id)).length ≤ 1 := by
  cases piece with
  | subject name =>
    refine .inr ?_
    have one := filter_subject offered written
    exact (congrArg List.length one).le
  | switch given =>
    refine .inr ?_
    have few := filter_switch offered written (switch_id given)
    exact (congrArg List.length few).trans (List.length_map _) ▸ Switch.filter_short _ _ _ _
  | flag field word =>
    obtain ⟨value, -, writes, -⟩ := written_of_flag written member
    obtain ⟨-, -, -, once⟩ := EditableField.read_of_written writes
    refine once.imp_right fun one => ?_
    rw [flag_id, filter_flag offered written (written.known field word member), List.length_map]
    exact one

omit offered written in
theorem mem_ids {id : String} :
    id ∈ pieces.map (·.id) ↔ pieces.filter (·.id = id) ≠ [] := by
  simp [List.filter_eq_nil_iff]

theorem toggled_once (enabled : enableId ∈ pieces.map (·.id))
    (disabled : disableId ∈ pieces.map (·.id)) : False := by
  rw [mem_ids, filter_switch offered written (by decide), Request.switches] at enabled disabled
  rw [Switch.filter_enable] at enabled
  rw [Switch.filter_disable] at disabled
  rcases toggle : request.toggle with _ | _ | _ | _ | _ <;> simp [toggle] at enabled disabled

theorem permits : (commandFor api fields).Permits (pieces.map (·.occurrence)) := by
  have ids : (pieces.map (·.occurrence)).map (·.id) = pieces.map (·.id) := by
    rw [List.map_map]
    rfl
  constructor
  · intro occurrence member
    obtain ⟨piece, inPieces, rfl⟩ := List.mem_map.1 member
    exact of_piece offered written inPieces
  · intro occurrence member
    obtain ⟨piece, inPieces, rfl⟩ := List.mem_map.1 member
    rw [List.filter_map, List.length_map]
    exact once_of_piece offered written inPieces
  · intro occurrence member
    obtain ⟨piece, inPieces, rfl⟩ := List.mem_map.1 member
    exact id_of_piece offered written inPieces
  · intro occurrence member group groupOf other inGroup differs given
    have here : occurrence.id ∈ pieces.map (·.id) := ids ▸ List.mem_map_of_mem member
    rw [ids] at given
    obtain ⟨isToggle, inMembers⟩ := List.mem_filter.1 groupOf
    cases List.mem_singleton.1 isToggle
    -- Of the two members, one is given by the occurrence and the other one must not be.
    simp only [toggleGroup, List.mem_cons, List.not_mem_nil, or_false, decide_eq_true_eq]
      at inGroup inMembers
    rcases inMembers with same | same <;> rcases inGroup with rfl | rfl <;>
      rw [same] at here differs
    · exact differs rfl
    · exact toggled_once offered written here given
    · exact toggled_once offered written given here
    · exact differs rfl
  · intro argument member required
    rw [ids]
    rcases List.mem_append.1 member with isFixed | isFlag
    · have only : ∀ argument ∈ fixedArguments, argument.required = true →
          argument.id = subjectId := by decide
      rw [only argument isFixed required, mem_ids, filter_subject offered written]
      exact List.cons_ne_nil _ _
    · obtain ⟨field, -, rfl⟩ := List.mem_map.1 isFlag
      rw [EditableField.argument_required] at required
      cases required

end

/-- What the pieces are matched to. -/
def matched (pieces : List Piece) : Matches :=
  .mk (Progress.gathered ((pieces.map (·.occurrence)).map (·.entry))) none

theorem all?_matched {pieces chosen : List Piece} {id : String}
    (filtered : pieces.filter (·.id = id) = chosen) : (matched pieces).all? id =
      if chosen = [] then none else some (chosen.flatMap (·.occurrence.values)) := by
  have occurrences : (pieces.map (·.occurrence)).filter (·.id = id) =
      chosen.map (·.occurrence) := by
    rw [List.filter_map, ← filtered]
    rfl
  refine (Command.held_of_filter occurrences).trans ?_
  simp only [List.flatMap_map, List.map_eq_nil_iff]

theorem fieldValue?_eq (found : Matches) (field : EditableField) :
    fieldValue? found field = (found.all? field.name).bind field.type.bundle := by
  unfold fieldValue?
  split
  next items list =>
    rw [funext (FieldType.bundle_list list), ← Function.comp_def, ← Option.map_eq_bind]
  next scalar =>
    rw [funext (FieldType.bundle_scalar scalar)]
    rfl

section

variable {request : Request} {pieces : List Piece} (offered : Offered fields)
  (written : request.WrittenBy fields pieces)

include offered written

theorem all?_switch {id : String} (isSwitch : id ∈ reserved ∧ id ≠ subjectId) :
    (matched pieces).all? id =
      if request.switches.filter (·.argument.id = id) = [] then none
      else some ((request.switches.filter (·.argument.id = id)).flatMap (·.values)) := by
  rw [all?_matched (filter_switch offered written isSwitch)]
  simp only [List.flatMap_map, List.map_eq_nil_iff]
  rfl

theorem toggle?_matched : toggle? (matched pieces) = request.toggle.map (·.state) := by
  have enable := @all?_switch fields request pieces offered written enableId (by decide)
  have disable := @all?_switch fields request pieces offered written disableId (by decide)
  rw [Request.switches, Switch.filter_enable] at enable
  rw [Request.switches, Switch.filter_disable] at disable
  rw [toggle?, Matches.isOn, Matches.integer?, Matches.first?, enable, disable]
  rcases request.toggle with _ | _ | _ | _ | _ <;> rfl

theorem fieldValue?_matched {field : EditableField} (member : field ∈ fields) :
    fieldValue? (matched pieces) field = request.value? field.name := by
  rw [fieldValue?_eq, all?_matched (filter_flag offered written member)]
  simp only [List.flatMap_map, List.map_eq_nil_iff]
  have chosen := written.chosen field member
  unfold Request.Writes at chosen
  split at chosen
  next value found =>
    obtain ⟨some, -, bundled, -⟩ := EditableField.read_of_written chosen
    rw [if_neg some, Option.bind_some, found, ← bundled, List.map_flatMap]
    rfl
  next missing => rw [chosen, missing, if_pos rfl, Option.bind_none]

theorem editArgs_matched :
    (Surface.mk api fields (commandFor api fields)).editArgs (matched pieces) =
      .ok (request.args fields) := by
  have subject : (matched pieces).text? subjectId = some request.name := by
    rw [Matches.text?, Matches.first?, all?_matched (filter_subject offered written)]
    rfl
  have create : (matched pieces).isOn createId = request.create := by
    rw [Matches.isOn, all?_switch offered written (by decide), Request.switches,
      Switch.filter_create]
    cases request.create <;> rfl
  have document : (matched pieces).isOn documentId = request.document := by
    rw [Matches.isOn, all?_switch offered written (by decide), Request.switches,
      Switch.filter_document]
    cases request.document <;> rfl
  have values : (fields.filterMap fun field =>
      (fieldValue? (matched pieces) field).map fun value => (field.name, value)) =
      (request.args fields).fields := by
    refine List.filterMap_congr fun field member => ?_
    rw [fieldValue?_matched offered written member]
  rw [editArgs, subject]
  simp only [create, document, toggle?_matched offered written, values]
  rfl

end

theorem offered_of_editableFields {schema : Schema} (described : schema.editableFields = .ok fields)
    (free : ∀ field ∈ fields, ¬clashes reserved field)
    (apart : ∀ field ∈ fields, field.name ≠ toggleGroup.id) : Offered fields := by
  obtain ⟨accepted, distinct, rfl⟩ := Schema.editableFields_eq_ok.1 described
  refine ⟨free, ?_, fun field member => ?_, apart⟩
  · rw [List.map_map]
    exact distinct.sublist (List.filter_sublist.map _)
  · obtain ⟨declared, editable, rfl⟩ := List.mem_map.1 member
    exact (accepted declared (List.mem_of_mem_filter editable)).named

/-- What is written in words is matched to what the words were written for. -/
theorem matches_written {schema : Schema} {surface : Surface}
    (described : schema.editableFields = .ok fields) (built : build api fields = .ok surface)
    (apart : ∀ field ∈ fields, field.name ≠ toggleGroup.id) {request : Request}
    {pieces : List Piece} (written : request.WrittenBy fields pieces) :
    ∃ found, surface.command.parse (pieces.map (·.word)) = .ok found ∧
      surface.editArgs found = .ok (request.args fields) := by
  obtain ⟨free, rfl⟩ := build_eq_ok.1 built
  have offered := offered_of_editableFields described free apart
  have words : pieces.map (·.word) = (pieces.map (·.occurrence)).map (·.word) := by
    rw [List.map_map]
    exact List.map_congr_left fun piece _ => piece.occurrence_word.symm
  refine ⟨matched pieces, ?_, editArgs_matched offered written⟩
  rw [words]
  exact Command.parse_of_permits rfl ⟨rfl, rfl⟩ (permits offered written)

end

/-! An edit with its words in some order -/

def groupField : Field := { name := "privacy_group", type := .integer }

def idsField : Field := { name := "ids", type := .list .integer, default := some (.array []) }

def labelField : Field := { name := "label", type := .optional .text, default := some .null }

def mixedSchema : Schema := .ofFields "demo" [groupField, idsField, labelField]

def mixedFields : List EditableField :=
  [groupField.toEditable, idsField.toEditable, labelField.toEditable]

def mixedRequest : Request where
  name := "c 1"
  create := true
  document := false
  toggle := some .enableZero
  value?
    | "privacy_group" => some (.integer 4)
    | "ids" => some (.array [.integer 1, .integer 2, .integer (-3)])
    | "label" => some (.string "a=b")
    | _ => none

def mixedPieces : List Piece :=
  [.flag idsField.toEditable "1,2", .switch (.toggle .enableZero),
    .flag labelField.toEditable "a=b", .subject "c 1", .flag idsField.toEditable "-3",
    .flag groupField.toEditable "4", .switch .create]

theorem mixedPieces_write : mixedRequest.WrittenBy mixedFields mixedPieces := by
  have integer : ∀ n, Integer.InRange n → ∀ word, String.ofList (Integer.text n) = word →
      FieldType.Spells .integer word (.integer n) := fun n fits word same => same ▸ .integer fits
  refine ⟨rfl, by decide, .swap _ _ _, fun field word member => ?_, fun field member => ?_⟩
  · simp only [mixedPieces, List.mem_cons, List.not_mem_nil, or_false, Piece.flag.injEq,
      reduceCtorEq, false_or] at member
    simp only [mixedFields, List.mem_cons]
    tauto
  · simp only [mixedFields, List.mem_cons, List.not_mem_nil, or_false] at member
    rcases member with rfl | rfl | rfl
    · exact .scalar (integer 4 (by decide) "4" (by decide))
    · refine @FieldType.Written.list _ .integer [["1", "2"], ["-3"]] _ rfl (by decide) (by decide)
        (by decide) ?_
      exact .cons (integer 1 (by decide) "1" (by decide))
        (.cons (integer 2 (by decide) "2" (by decide))
          (.cons (integer (-3) (by decide) "-3" (by decide)) .nil))
    · exact .scalar (.text "a=b")

theorem mixedPieces_words : mixedPieces.map (·.word) = ["--ids=1,2", "--enable=0",
    "--label=a=b", "c 1", "--ids=-3", "--privacy-group=4", "--create"] := by decide

/-- The order of the words does not matter, except for the items of one list. -/
theorem matches_written_mixed : ∃ surface found,
    mixedSchema.editableFields = .ok mixedFields ∧ build "demo" mixedFields = .ok surface ∧
    (∀ field ∈ mixedFields, field.name ≠ toggleGroup.id) ∧
    mixedRequest.WrittenBy mixedFields mixedPieces ∧
    surface.command.parse ["--ids=1,2", "--enable=0", "--label=a=b", "c 1", "--ids=-3",
      "--privacy-group=4", "--create"] = .ok found ∧
    surface.editArgs found = .ok ⟨"c 1", true, some 0, false, [("privacy_group", .integer 4),
      ("ids", .array [.integer 1, .integer 2, .integer (-3)]), ("label", .string "a=b")]⟩ := by
  have described : mixedSchema.editableFields = .ok mixedFields := rfl
  have built : build "demo" mixedFields =
      .ok ⟨"demo", mixedFields, commandFor "demo" mixedFields⟩ := build_eq_ok.2 ⟨by decide, rfl⟩
  have apart : ∀ field ∈ mixedFields, field.name ≠ toggleGroup.id := by decide
  obtain ⟨found, parsed, given⟩ := matches_written described built apart mixedPieces_write
  rw [mixedPieces_words] at parsed
  exact ⟨_, found, described, built, apart, mixedPieces_write, parsed, given⟩

end Surface

end SignalExchange
