import SignalExchange.Edit.Resolve
import SignalExchange.Proofs.Edit.Assignments
import SignalExchange.Proofs.Json.Entries
import SignalExchange.Proofs.Schema.FieldType
import SignalExchange.Proofs.Schema.WellFormed
import SignalExchange.Proofs.Text.ByteOrder

/-! What an edit command asks for.

The assignments of the four layers, one after another, are the edit: so a later layer decides a
value that an earlier one gave, and the key keeps the place that it had there.
-/

set_option autoImplicit false

namespace SignalExchange

namespace EditArgs

/-! The layers above the document -/

def identity (api identifier : String) (args : EditArgs) : List (String × Json) :=
  if args.create then
    [("name", .string identifier), ("enabled", .boolean true), ("api", .string api)]
  else []

def toggle (args : EditArgs) : List (String × Json) :=
  match args.enable with
  | none => []
  | some enable => [("enabled", .boolean (enable ≠ 0))]

def flags (fields : List EditableField) (args : EditArgs) : List (String × Json) :=
  fields.filterMap fun field =>
    (EditSet.lookup field.name args.fields).map fun value => (field.name, value)

/-- The assignments of all layers in their order. -/
def layers (api : String) (fields : List EditableField) (args : EditArgs) (identifier : String)
    (document : List (String × Json)) : List (String × Json) :=
  document ++ args.identity api identifier ++ args.toggle ++ args.flags fields

/-- The value that a flag gives to one of the fields. -/
def flag? (fields : List EditableField) (args : EditArgs) (key : String) : Option Json :=
  if key ∈ fields.map (·.name) then EditSet.lookup key args.fields else none

variable {api : String} {fields : List EditableField} {args : EditArgs} {identifier : String}

theorem flags_cons (field : EditableField) (rest : List EditableField) (args : EditArgs) :
    args.flags (field :: rest) =
      ((EditSet.lookup field.name args.fields).map fun value => (field.name, value)).toList ++
        args.flags rest := by
  cases given : EditSet.lookup field.name args.fields <;> simp [flags, given]

theorem keys_flags (fields : List EditableField) (args : EditArgs) :
    (args.flags fields).map (·.1) =
      (fields.map (·.name)).filter fun name => (EditSet.lookup name args.fields).isSome := by
  induction fields with
  | nil => rfl
  | cons field rest ih =>
    rw [flags_cons, List.map_append, ih]
    cases given : EditSet.lookup field.name args.fields <;> simp [given]

theorem lookup_flags (fields : List EditableField) (args : EditArgs) (key : String) :
    EditSet.lookup key (args.flags fields) = args.flag? fields key := by
  induction fields with
  | nil => rfl
  | cons field rest ih =>
    rw [flags_cons, EditSet.lookup_append, ih]
    by_cases same : field.name = key
    · subst same
      cases given : EditSet.lookup field.name args.fields <;>
        simp [EditSet.lookup, flag?, given]
    · cases EditSet.lookup field.name args.fields <;>
        simp [EditSet.lookup, flag?, same, Ne.symm same]

theorem withFields_eq (fields : List EditableField) (args : EditArgs) (edit : EditSet) :
    args.withFields fields edit =
      (args.flags fields).foldl (fun edit entry => edit.set entry.1 entry.2) edit := by
  induction fields generalizing edit with
  | nil => rfl
  | cons field rest ih =>
    rw [flags_cons, List.foldl_append, ← ih, withFields, List.foldl_cons]
    cases EditSet.lookup field.name args.fields <;> rfl

theorem edit_eq (document : List (String × Json)) :
    args.withFields fields (args.withToggle (args.withIdentity api identifier (.ofList document))) =
      .ofList (args.layers api fields identifier document) := by
  have created : args.withIdentity api identifier (.ofList document) =
      .ofList (document ++ args.identity api identifier) := by
    rw [EditSet.ofList_append, identity, withIdentity]
    split <;> rfl
  have toggled (entries : List (String × Json)) :
      args.withToggle (.ofList entries) = .ofList (entries ++ args.toggle) := by
    rw [EditSet.ofList_append, toggle, withToggle]
    cases args.enable <;> rfl
  rw [created, toggled, withFields_eq, layers, EditSet.ofList_append _ (args.flags fields)]

theorem lookup_layers {document : List (String × Json)}
    (distinct : (document.map (·.1)).Nodup) (names : (fields.map (·.name)).Nodup) (key : String) :
    EditSet.lookup key (args.layers api fields identifier document).reverse =
      (args.flag? fields key).or ((EditSet.lookup key args.toggle).or
        ((EditSet.lookup key (args.identity api identifier)).or
          (EditSet.lookup key document))) := by
  have flags : ((args.flags fields).map (·.1)).Nodup := by
    rw [keys_flags]
    exact names.filter _
  have toggle : (args.toggle.map (·.1)).Nodup := by
    rw [EditArgs.toggle]
    cases args.enable <;> simp
  have identity : ((args.identity api identifier).map (·.1)).Nodup := by
    rw [EditArgs.identity]
    cases args.create <;> simp
  simp only [layers, List.reverse_append, EditSet.lookup_append, EditSet.lookup_reverse flags,
    EditSet.lookup_reverse toggle, EditSet.lookup_reverse identity,
    EditSet.lookup_reverse distinct, lookup_flags]

/-! The document -/

/-- An entry that a document may have. -/
def Permitted (fields : List EditableField) (entry : String × Json) : Prop :=
  ((entry.1 = "name" ∨ entry.1 = "api") ∧ ∃ text, entry.2 = .string text) ∨
    (entry.1 = "enabled" ∧ ∃ enabled, entry.2 = .boolean enabled) ∨
    ∃ field ∈ fields, field.name = entry.1 ∧ field.type.Accepts entry.2

/-- What the arguments start from: an identifier, and the entries of the document if there is
one. -/
inductive Starts (fields : List EditableField) (args : EditArgs) :
    String → List (String × Json) → Prop where
  | plain (notDocument : args.isDocument = false) : Starts fields args args.subject []
  | document {name : String} {entries : List (String × Json)} (isDocument : args.isDocument = true)
      (read : Json.read args.subject = .ok (.object entries))
      (named : Ascending.find? "name" entries = some (.string name))
      (permitted : ∀ entry ∈ entries, Permitted fields entry) : Starts fields args name entries

theorem checkEntry_eq_ok (names : (fields.map (·.name)).Nodup)
    (apart : ∀ field ∈ fields, field.name ∉ commonNames) (entry : String × Json) :
    checkEntry fields entry.1 entry.2 = .ok () ↔ Permitted fields entry := by
  obtain ⟨key, value⟩ := entry
  -- The three kinds of keys exclude each other, for no field is called like a common one.
  have common : ∀ field ∈ fields, field.name = key →
      key ≠ "name" ∧ key ≠ "api" ∧ key ≠ "enabled" := by
    rintro field member rfl
    simpa [commonNames, commonFields] using apart field member
  simp only [checkEntry, Permitted]
  split
  next identity =>
    rw [Except.mapError_eq_ok]
    refine Iff.trans FieldType.text_accepts_iff ⟨fun word => .inl ⟨identity, word⟩, ?_⟩
    rintro (⟨-, word⟩ | ⟨rfl, -⟩ | ⟨field, member, same, -⟩)
    · exact word
    · simp at identity
    · obtain ⟨notName, notApi, -⟩ := common field member same
      exact absurd identity (not_or.2 ⟨notName, notApi⟩)
  next notIdentity =>
    split
    next enabled =>
      rw [Except.mapError_eq_ok]
      refine Iff.trans FieldType.boolean_accepts_iff ⟨fun flag => .inr (.inl ⟨enabled, flag⟩), ?_⟩
      rintro (⟨identity, -⟩ | ⟨-, flag⟩ | ⟨field, member, same, -⟩)
      · exact absurd identity notIdentity
      · exact flag
      · exact absurd enabled (common field member same).2.2
    next notEnabled =>
      cases found : fields.find? fun field => field.name = key with
      | none =>
        have absent := List.find?_eq_none.1 found
        simp only [notIdentity, notEnabled, false_and, false_or]
        constructor
        · intro refused
          cases refused
        · rintro ⟨field, member, same, -⟩
          exact absurd (decide_eq_true same) (absent field member)
      | some field =>
        have same : field.name = key := by simpa using List.find?_some found
        have member := List.mem_of_find?_eq_some found
        simp only [notIdentity, notEnabled, false_and, false_or, Except.mapError_eq_ok]
        refine ⟨fun fits => ⟨field, member, same, fits⟩, ?_⟩
        rintro ⟨other, inFields, sameName, fits⟩
        -- The search gives the first field of the name, and there is no other.
        cases List.inj_on_of_nodup_map names inFields member (sameName.trans same.symm)
        exact fits

theorem documentName_eq_ok {entries : List (String × Json)} {name : String} :
    documentName entries = .ok name ↔ Ascending.find? "name" entries = some (.string name) := by
  unfold documentName
  cases Ascending.find? "name" entries with
  | none => simp
  | some value => cases value <;> simp

theorem readDocument_eq_ok {text : String} {entries : List (String × Json)} :
    readDocument text = .ok entries ↔ Json.read text = .ok (.object entries) := by
  unfold readDocument
  cases Json.read text with
  | error error => simp
  | ok document => cases document <;> simp

theorem base_eq_ok (names : (fields.map (·.name)).Nodup)
    (apart : ∀ field ∈ fields, field.name ∉ commonNames) {edit : EditSet} :
    args.base fields = .ok (identifier, edit) ↔
      ∃ document, Starts fields args identifier document ∧ edit = .ofList document := by
  have each := @checkEntry_eq_ok fields names apart
  unfold base
  cases isDocument : args.isDocument with
  | false =>
    constructor
    · intro done
      cases done
      exact ⟨[], .plain isDocument, rfl⟩
    · rintro ⟨_, plain | ⟨yes, -, -, -⟩, rfl⟩
      · rfl
      · cases isDocument.symm.trans yes
  | true =>
    simp only [if_true, Except.bind_eq_ok]
    constructor
    · rintro ⟨entries, read, name, named, _, permitted, same⟩
      cases same
      exact ⟨entries, .document isDocument (readDocument_eq_ok.1 read)
        (documentName_eq_ok.1 named) fun entry member =>
          (each entry).1 (Except.forM_eq_ok.1 permitted entry member), rfl⟩
    · rintro ⟨entries, no | ⟨-, read, named, permitted⟩, rfl⟩
      · cases isDocument.symm.trans no
      · exact ⟨entries, readDocument_eq_ok.2 read, identifier, documentName_eq_ok.2 named, (),
          Except.forM_eq_ok.2 fun entry member => (each entry).2 (permitted entry member), rfl⟩

/-! What is resolved -/

/-- The value of a field after all layers: the last layer that has one decides. -/
def value? (api : String) (fields : List EditableField) (args : EditArgs) (identifier : String)
    (document : List (String × Json)) (key : String) : Option Json :=
  (args.flag? fields key).or ((EditSet.lookup key args.toggle).or
    ((EditSet.lookup key (args.identity api identifier)).or (Ascending.find? key document)))

/-- The keys of all layers, each at its first place. -/
def order (fields : List EditableField) (args : EditArgs) (document : List (String × Json)) :
    List String :=
  (document.map (·.1) ++ (if args.create then ["name", "enabled", "api"] else []) ++
    (if args.enable.isSome then ["enabled"] else []) ++
    (fields.map (·.name)).filter fun name => (EditSet.lookup name args.fields).isSome).eraseDups

/-- The layers of the arguments over a document, and under its identifier. -/
structure Overlays (api : String) (fields : List EditableField) (args : EditArgs)
    (document : List (String × Json)) (resolved : ResolvedEdit) : Prop where
  create : resolved.create = args.create
  distinct : resolved.edit.keys.Nodup
  value : ∀ key, resolved.edit.get? key = args.value? api fields resolved.identifier document key
  order : resolved.edit.keys = args.order fields document

theorem keys_layers (document : List (String × Json)) :
    ((args.layers api fields identifier document).map (·.1)).eraseDups =
      args.order fields document := by
  have toggle : args.toggle.map (·.1) = if args.enable.isSome then ["enabled"] else [] := by
    rw [EditArgs.toggle]
    cases args.enable <;> rfl
  have identity : (args.identity api identifier).map (·.1) =
      if args.create then ["name", "enabled", "api"] else [] := by
    rw [EditArgs.identity]
    split <;> rfl
  rw [layers, order, List.map_append, List.map_append, List.map_append, keys_flags, toggle,
    identity]

theorem resolve_eq_ok (names : (fields.map (·.name)).Nodup)
    (apart : ∀ field ∈ fields, field.name ∉ commonNames) {resolved : ResolvedEdit} :
    args.resolve api fields = .ok resolved ↔
      ∃ document, Starts fields args resolved.identifier document ∧
        resolved.edit = .ofList (args.layers api fields resolved.identifier document) ∧
        resolved.create = args.create := by
  unfold resolve
  rw [Except.bind_eq_ok]
  constructor
  · rintro ⟨⟨identifier, edit⟩, base, same⟩
    cases same
    obtain ⟨document, starts, rfl⟩ := (base_eq_ok names apart).1 base
    exact ⟨document, starts, edit_eq document, rfl⟩
  · rintro ⟨document, starts, edit, create⟩
    refine ⟨(resolved.identifier, .ofList document),
      (base_eq_ok names apart).2 ⟨document, starts, rfl⟩, ?_⟩
    simp only [Except.pure_eq, edit_eq, ← edit, ← create]

theorem lookup_document {document : List (String × Json)} (ascending : Ascending document)
    (key : String) : EditSet.lookup key document = Ascending.find? key document := by
  apply Option.ext
  intro value
  rw [EditSet.lookup_eq_some_iff (Ascending.nodup_keys ascending),
    Ascending.find?_eq_some_iff ascending]

theorem Starts.ascending {document : List (String × Json)}
    (starts : Starts fields args identifier document) : Ascending document := by
  cases starts with
  | plain => exact Ascending.nil
  | document _ read => exact Json.ascending_of_read read

theorem Starts.with_flags {document : List (String × Json)}
    (starts : Starts fields args identifier document) (others : List (String × Json)) :
    Starts fields { args with fields := others } identifier document := by
  cases starts with
  | plain notDocument => exact .plain notDocument
  | document isDocument read named permitted => exact .document isDocument read named permitted

theorem overlays_of_resolve (names : (fields.map (·.name)).Nodup)
    {document : List (String × Json)} {resolved : ResolvedEdit} (ascending : Ascending document)
    (edit : resolved.edit = .ofList (args.layers api fields resolved.identifier document))
    (create : resolved.create = args.create) : Overlays api fields args document resolved where
  create := create
  distinct := edit ▸ EditSet.nodup_keys_ofList _
  value key := by
    rw [edit, EditSet.get?_ofList, lookup_layers (Ascending.nodup_keys ascending) names,
      lookup_document ascending, value?]
  order := by rw [edit, EditSet.keys_ofList, keys_layers]

theorem flag?_common (apart : ∀ field ∈ fields, field.name ∉ commonNames) {key : String}
    (common : key ∈ commonNames) : args.flag? fields key = none := by
  rw [flag?, if_neg]
  intro member
  obtain ⟨field, inFields, rfl⟩ := List.mem_map.1 member
  exact apart field inFields common

theorem resolve_overlays {declared : String} {own : List Field}
    (described : (Schema.ofFields declared own).editableFields = .ok fields) (api : String)
    (args : EditArgs) :
    ((∃ resolved, args.resolve api fields = .ok resolved) ↔
      args.isDocument = false ∨ ∃ entries name, Json.read args.subject = .ok (.object entries) ∧
        Ascending.find? "name" entries = some (.string name) ∧
        ∀ entry ∈ entries, Permitted fields entry) ∧
    ∀ resolved, args.resolve api fields = .ok resolved →
      ∃ document, Starts fields args resolved.identifier document ∧
        (document.map fun entry => textBytes entry.1).Pairwise (· < ·) ∧
        Overlays api fields args document resolved ∧
        ∀ others, ∃ changed, { args with fields := others }.resolve api fields = .ok changed ∧
          changed.identifier = resolved.identifier ∧
          ∀ key ∈ commonNames, changed.edit.get? key = resolved.edit.get? key := by
  obtain ⟨names, apart⟩ := Schema.editable_names described
  have resolves {args : EditArgs} {resolved : ResolvedEdit} :=
    @resolve_eq_ok api fields args names apart resolved
  have build {args : EditArgs} {identifier : String} {document : List (String × Json)}
      (starts : Starts fields args identifier document) :
      args.resolve api fields = .ok
        ⟨identifier, .ofList (args.layers api fields identifier document), args.create⟩ :=
    resolves.2 ⟨document, starts, rfl, rfl⟩
  refine ⟨⟨?_, ?_⟩, fun resolved done => ?_⟩
  · rintro ⟨⟨identifier, edit, create⟩, done⟩
    obtain ⟨document, notDocument | ⟨-, read, named, permitted⟩, -⟩ := resolves.1 done
    · exact .inl notDocument
    · exact .inr ⟨document, _, read, named, permitted⟩
  · rintro (notDocument | ⟨entries, name, read, named, permitted⟩)
    · exact ⟨_, build (.plain notDocument)⟩
    · cases isDocument : args.isDocument with
      | false => exact ⟨_, build (.plain isDocument)⟩
      | true => exact ⟨_, build (.document isDocument read named permitted)⟩
  · obtain ⟨document, starts, edit, create⟩ := resolves.1 done
    have overlays := overlays_of_resolve names starts.ascending edit create
    refine ⟨document, starts, List.pairwise_map.2 (starts.ascending.imp (textBytes_lt_iff _ _).2),
      overlays, fun others => ?_⟩
    -- Flags take no part in what the arguments start from, and reach no common field.
    have changed := build (starts.with_flags others)
    refine ⟨_, changed, rfl, fun key common => ?_⟩
    rw [(overlays_of_resolve names starts.ascending rfl rfl).value, overlays.value, value?, value?,
      flag?_common apart common, flag?_common apart common]
    rfl

/-- A new record from a document, with a flag for a field and one that no field has. -/
def overDocument : EditArgs :=
  { subject := "\x7b\"name\":\"k\",\"enabled\":false,\"priority\":1\x7d"
    create := true
    enable := none
    isDocument := true
    fields := [("priority", .integer 5), ("name", .string "other")] }

theorem resolve_overlays_document :
    ∃ fields resolved document,
      (Schema.ofFields "demo" [{ name := "priority", type := .integer }]).editableFields =
        .ok fields ∧
      overDocument.resolve "demo" fields = .ok resolved ∧ resolved.identifier = "k" ∧
      resolved.edit.entries = [("enabled", .boolean true), ("name", .string "k"),
        ("priority", .integer 5), ("api", .string "demo")] ∧
      Overlays "demo" fields overDocument document resolved := by
  have described : (Schema.ofFields "demo"
      [{ name := "priority", type := .integer }]).editableFields =
    .ok [Field.toEditable { name := "priority", type := .integer }] := rfl
  have done : overDocument.resolve "demo"
      [Field.toEditable { name := "priority", type := .integer }] =
    .ok ⟨"k", ⟨[("enabled", .boolean true), ("name", .string "k"), ("priority", .integer 5),
      ("api", .string "demo")]⟩, true⟩ := rfl
  obtain ⟨document, -, -, overlays, -⟩ :=
    (resolve_overlays described "demo" overDocument).2 _ done
  exact ⟨_, _, document, described, done, rfl, rfl, overlays⟩

end EditArgs

end SignalExchange
