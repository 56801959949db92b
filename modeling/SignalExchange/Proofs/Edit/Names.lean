import SignalExchange.Proofs.Arguments.Calls
import SignalExchange.Proofs.Edit.Spelling
import SignalExchange.Proofs.Schema.Description

/-! The names of an edit command.

Fixed arguments and fields share one space of names with the group of the toggles. The reserved
names keep fields apart from the arguments, but not from that group.
-/

set_option autoImplicit false

namespace SignalExchange

namespace Command

/-- All names by which the command knows an argument or a group. -/
def ids (command : Command) : List String :=
  command.allArguments.map (·.id) ++ command.groups.map (·.id)

end Command

namespace EditableField

/-- The word gives the flag of the field, with a value attached or without. -/
def Flagged (field : EditableField) (word : String) : Prop :=
  word = "--" ++ field.flag ∨ ∃ value, word = "--" ++ field.flag ++ "=" ++ value

variable {field : EditableField}

theorem argument_short : field.argument.short = none := by
  unfold argument
  split <;> rfl

theorem flagged_of_calls {command : Command} {word : String}
    (calls : command.Calls word field.argument) : field.Flagged word := by
  cases calls with
  | @long name _ spelled found =>
    have long : field.argument.long = some (Command.splitLong name).1 := by
      simpa using List.find?_some found
    rw [argument_long, Option.some_inj] at long
    -- The word is the flag, or the flag with a value behind an equals sign.
    rcases Command.eq_of_splitLong name with bare | ⟨value, attached⟩
    · refine .inl (String.toList_injective ?_)
      rw [spelled, bare, ← long]
      simp
    · refine .inr ⟨String.ofList value, String.toList_injective ?_⟩
      rw [spelled, attached, ← long]
      simp
  | short _ _ found =>
    have short := List.find?_some found
    simp [argument_short] at short
  | placed member =>
    have positional := (List.mem_filter.1 member).2
    simp [Argument.isPositional, argument_long] at positional

end EditableField

namespace Surface

variable {api : String} {fields : List EditableField}

section

variable (free : ∀ field ∈ fields, ¬clashes reserved field)

include free

/-- Only the group can have the name of a field. -/
theorem nodup_ids_iff (names : (fields.map (·.name)).Nodup) :
    (commandFor api fields).ids.Nodup ↔ ∀ field ∈ fields, field.name ≠ toggleGroup.id := by
  have notShared : toggleGroup.id ∉ sharedArguments.map (·.id) := by decide
  have mem (id : String) : id ∈ (commandFor api fields).allArguments.map (·.id) ↔
      id ∈ fields.map (·.name) ∨ id ∈ sharedArguments.map (·.id) := by
    rw [argumentIds_commandFor.mem_iff, List.mem_append]
  rw [Command.ids, List.nodup_append]
  constructor
  · rintro ⟨-, -, apart⟩ field member
    exact apart _ ((mem _).2 (.inl (List.mem_map_of_mem member))) _ List.mem_cons_self
  · intro apart
    refine ⟨nodup_argumentIds free names, List.nodup_singleton _, fun id isId group isGroup => ?_⟩
    rw [List.mem_singleton.1 isGroup]
    rintro rfl
    rcases (mem _).1 isId with isName | isShared
    · obtain ⟨field, member, same⟩ := List.mem_map.1 isName
      exact apart field member same
    · exact notShared isShared

end

/-- An edit command knows every field by one argument, whose flag no other argument has. All its
names differ unless a field is called like the group of the toggles; then whatever is matched to a
field was given with its own flag. -/
theorem fields_apart {declared api : String} {own : List Field} {fields : List EditableField}
    {surface : Surface} (described : (Schema.ofFields declared own).editableFields = .ok fields)
    (built : build api fields = .ok surface) :
    (surface.command.ids.Nodup ↔ ∀ field ∈ fields, field.name ≠ toggleGroup.id) ∧
    surface.command.longs.Nodup ∧
    (∀ field ∈ fields,
      surface.command.allArguments.filter (fun argument => argument.id = field.name) =
        [field.argument] ∧
      surface.command.allArguments.filter (fun argument => argument.long = some field.flag) =
        [field.argument]) ∧
    ((∀ field ∈ fields, field.name ≠ toggleGroup.id) →
      ∀ words found, surface.command.parse words = .ok found → ∀ field ∈ fields,
        ∃ given : List Occurrence,
          (∀ occurrence ∈ given, occurrence.argument = field.argument ∧
            occurrence.word ∈ words ∧ field.Flagged occurrence.word ∧
            ∃ taken, field.argument.Brings taken occurrence.values) ∧
          found.all? field.name =
            if given = [] then none else some (given.flatMap (·.values))) := by
  obtain ⟨names, -⟩ := Schema.editable_names described
  obtain ⟨free, rfl⟩ := build_eq_ok.1 built
  have longs : (commandFor api fields).longs.Nodup :=
    nodup_longs free (Schema.flags_distinct described)
  refine ⟨nodup_ids_iff free names, longs, fun field member => ⟨?_, ?_⟩, ?_⟩
  -- Only arguments count here. The name of the group may be that of a field.
  · have ids : ((commandFor api fields).allArguments.filterMap
        (some ∘ fun argument => argument.id)).Nodup := by
      rw [List.filterMap_eq_map]
      exact nodup_argumentIds free names
    simpa using filter_of_distinct ids (mem_allArguments member)
      (congrArg some EditableField.argument_id)
  · exact filter_of_distinct longs (mem_allArguments member) EditableField.argument_long
  · intro _ words found parsed field member
    obtain ⟨given, own, all⟩ := Command.all?_of_parse parsed field.name
    refine ⟨given, fun occurrence isGiven => ?_, all⟩
    obtain ⟨⟨inWords, calls, taken, brings⟩, named⟩ := own occurrence isGiven
    have same : occurrence.argument = field.argument := argument_of_name free names member
      (Command.mem_allArguments_of_calls calls) named
    rw [same] at calls brings
    exact ⟨same, inWords, EditableField.flagged_of_calls calls, taken, brings⟩

/-- The two occurrences of a flag among other words bring the values of its field. -/
theorem rows_apart : ∃ fields surface found,
    (rowsOf (.list .integer)).editableFields = .ok fields ∧ build "demo" fields = .ok surface ∧
    surface.command.ids.Nodup ∧
    surface.command.parse ["c", "--rows", "1,2", "--enable", "--rows=3"] = .ok found ∧
    ∀ field ∈ fields, ∃ given : List Occurrence, given ≠ [] ∧
      (∀ occurrence ∈ given, field.Flagged occurrence.word) ∧
      given.flatMap (·.values) = [.integer 1, .integer 2, .integer 3] := by
  have run : ∃ surface found, build "demo" [Field.toEditable
        { name := "rows", type := .list .integer }] = .ok surface ∧
      surface.command.parse ["c", "--rows", "1,2", "--enable", "--rows=3"] = .ok found ∧
      found.all? "rows" = some [.integer 1, .integer 2, .integer 3] :=
    ⟨_, .mk [("collab_name", [.string "c"]), ("rows", [.integer 1, .integer 2, .integer 3]),
      ("enable", [.integer 1])] none, rfl, rfl, rfl⟩
  obtain ⟨surface, found, built, parsed, all⟩ := run
  have described : (rowsOf (.list .integer)).editableFields =
    .ok [Field.toEditable { name := "rows", type := .list .integer }] := rfl
  have noGroup : ∀ field ∈ [Field.toEditable { name := "rows", type := .list .integer }],
      field.name ≠ toggleGroup.id := by decide
  obtain ⟨ids, -, -, traced⟩ := fields_apart described built
  refine ⟨_, surface, found, described, built, ids.2 noGroup, parsed, fun field member => ?_⟩
  obtain ⟨given, own, same⟩ := traced noGroup _ found parsed field member
  cases List.mem_singleton.1 member
  have values := all.symm.trans same
  split at values
  · cases values
  next some =>
    exact ⟨given, some, fun occurrence isGiven => (own occurrence isGiven).2.2.1,
      (Option.some.inj values).symm⟩

/-- A field may be called like the group of the toggles. -/
theorem toggleGroup_not_reserved : ∃ fields surface,
    (Schema.ofFields "demo" [{ name := "on_off", type := .text }]).editableFields = .ok fields ∧
    build "demo" fields = .ok surface ∧
    surface.command.ids = ["collab_name", "create", "enable", "disable", "is_json", "on_off",
      "help", "on_off"] ∧ ¬surface.command.ids.Nodup :=
  ⟨_, _, rfl, rfl, rfl, by decide⟩

end Surface

end SignalExchange
