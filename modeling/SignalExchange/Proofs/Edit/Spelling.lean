import SignalExchange.Proofs.Arguments.Occurrences
import SignalExchange.Proofs.Edit.Surface
import SignalExchange.Proofs.Text.Integer

/-! Words that write the values of fields.

Every value of a text, an integer, a Boolean or a choice has a word. A list is written item by item,
with commas between the items of one occurrence of its flag, so no item may hold a comma.
-/

set_option autoImplicit false

namespace SignalExchange

namespace FieldType

/-- The word writes the value. -/
inductive Spells : FieldType → String → Json → Prop where
  | text (word : String) : Spells .text word (.string word)
  | integer {n : Int} (fits : Integer.InRange n) :
      Spells .integer (String.ofList (Integer.text n)) (.integer n)
  | yes : Spells .boolean "true" (.boolean true)
  | no : Spells .boolean "false" (.boolean false)
  | choice {among : Choice} {word : String} (member : word ∈ among.members) :
      Spells (.choice among) word (.string word)

/-- The words, one for each occurrence of a flag, write the value of a field. -/
inductive Written (type : FieldType) : List String → Json → Prop where
  | scalar {word : String} {value : Json} (spells : type.required.Spells word value) :
      Written type [word] value
  | list {items : FieldType} {groups : List (List String)} {values : List Json}
      (list : type.required = .list items) (given : groups ≠ [])
      (full : ∀ group ∈ groups, group ≠ [])
      (plain : ∀ group ∈ groups, ∀ word ∈ group, ',' ∉ word.toList)
      (spells : List.Forall₂ items.required.Spells groups.flatten values) :
      Written type (groups.map (String.intercalate ",")) (.array values)

variable {type : FieldType} {word : String} {value : Json}

theorem Spells.read (spells : type.required.Spells word value) :
    type.valueKind.read word = .ok value := by
  rw [valueKind]
  generalize type.required = required at spells
  cases spells with
  | text => rfl
  | integer fits =>
    simp [ValueKind.read, ValueKind.readInteger, Integer.read_text fits]
  | yes => rfl
  | no => rfl
  | choice member => simp [ValueKind.read, member]

theorem Spells.scalar (spells : type.required.Spells word value) (items : FieldType) :
    type.required ≠ .list items := by
  intro list
  rw [list] at spells
  cases spells

theorem Spells.single (spells : type.required.Spells word value) (inner : FieldType) :
    type.required ≠ .optional inner := by
  intro optional
  rw [optional] at spells
  cases spells

def bundle (type : FieldType) (values : List Json) : Option Json :=
  match type.required with
  | .list _ => some (.array values)
  | _ => values.head?

theorem bundle_list {items : FieldType} (list : type.required = .list items)
    (values : List Json) : type.bundle values = some (.array values) := by
  rw [bundle, list]

theorem bundle_scalar (scalar : ∀ items, type.required ≠ .list items) (values : List Json) :
    type.bundle values = values.head? := by
  unfold bundle
  split
  next items list => exact absurd list (scalar items)
  next => rfl

end FieldType

namespace EditableField

variable {field : EditableField} {word : String} {value : Json}

theorem argument_required : field.argument.required = false := by
  unfold argument
  split <;> rfl

theorem argument_takesValue : field.argument.takesValue = true := by
  unfold argument
  split <;> rfl

/-- The value that the flag reads from a word; null if it reads none. -/
def valueOf (field : EditableField) (word : String) : Json :=
  (field.argument.readValue word).toOption.getD .null

/-- The flag reads every part of the word. -/
def Reads (field : EditableField) (word : String) : Prop :=
  ∀ part ∈ field.argument.split word, field.argument.readValue part = .ok (field.valueOf part)

theorem valueOf_of_read (read : field.argument.readValue word = .ok value) :
    field.valueOf word = value := by
  rw [valueOf, read]
  rfl

theorem mapM_readValue_eq_ok {words : List String} {values : List Json} :
    words.mapM field.argument.readValue = .ok values ↔
      (∀ word ∈ words, field.argument.readValue word = .ok (field.valueOf word)) ∧
        values = words.map field.valueOf := by
  refine Except.mapM_eq_ok_map fun word value => ⟨fun read => ?_, fun ⟨read, same⟩ => same ▸ read⟩
  rw [valueOf_of_read read]
  exact ⟨read, rfl⟩

theorem argument_of_list {items : FieldType} (list : field.type.required = .list items) :
    field.argument.action = .append ∧ field.argument.delimiter = some ',' := by
  rw [argument, list]
  exact ⟨rfl, rfl⟩

theorem argument_of_scalar (scalar : ∀ items, field.type.required ≠ .list items) :
    field.argument.action = .set ∧ field.argument.delimiter = none := by
  unfold argument
  split
  next items list => exact absurd list (scalar items)
  next => exact ⟨rfl, rfl⟩

theorem split_scalar (scalar : ∀ items, field.type.required ≠ .list items) (word : String) :
    field.argument.split word = [word] := by
  rw [Argument.split, (argument_of_scalar scalar).2]

theorem split_intercalate {items : FieldType} (list : field.type.required = .list items)
    {group : List String} (full : group ≠ []) (plain : ∀ word ∈ group, ',' ∉ word.toList) :
    field.argument.split (String.intercalate "," group) = group := by
  have free : ∀ part ∈ group.map String.toList, ',' ∉ part := by
    intro part member
    obtain ⟨word, inGroup, rfl⟩ := List.mem_map.1 member
    exact plain word inGroup
  have parts := List.splitOn_intercalate ',' free (by simpa using full)
  simp only [Argument.split, (argument_of_list list).2, String.toList_intercalate]
  change (List.splitOn ',' ([','].intercalate (group.map String.toList))).map String.ofList = group
  rw [parts, List.map_map]
  exact (List.map_congr_left fun word _ => String.ofList_toList).trans (List.map_id group)

theorem brings (reads : field.Reads word) :
    field.argument.Brings [word] ((field.argument.split word).map field.valueOf) := by
  have fits : field.argument.countFits [word] = .ok () := by
    unfold argument
    split <;> rfl
  have gathers : field.argument.action = .set ∨ field.argument.action = .append := by
    unfold argument
    split
    · exact .inr rfl
    · exact .inl rfl
  have parts : field.argument.valueWords [word] = field.argument.split word := by
    simp [Argument.valueWords]
  refine ⟨fits, .inr ⟨gathers, ?_⟩⟩
  rw [parts]
  exact mapM_readValue_eq_ok.2 ⟨reads, rfl⟩

theorem read_of_written {words : List String} (written : field.type.Written words value) :
    words ≠ [] ∧ (∀ word ∈ words, field.Reads word) ∧
      field.type.bundle ((words.flatMap field.argument.split).map field.valueOf) = some value ∧
      (field.argument.action = .append ∨ words.length ≤ 1) := by
  cases written with
  | @scalar word value spells =>
    have read : field.argument.readValue word = .ok value := by
      rw [Argument.readValue_eq_ok, argument_kind_of_scalar spells.single spells.scalar]
      exact spells.read
    have split := split_scalar spells.scalar word
    refine ⟨by simp, ?_, ?_, .inr le_rfl⟩
    · simp [Reads, split, valueOf_of_read read, read]
    · simp [FieldType.bundle_scalar spells.scalar, split, valueOf_of_read read]
  | @list items groups values list given full plain spells =>
    have split : ∀ group ∈ groups,
        field.argument.split (String.intercalate "," group) = group := fun group member =>
      split_intercalate list (full group member) (plain group member)
    have parts : (groups.map (String.intercalate ",")).flatMap field.argument.split =
        groups.flatten := by
      rw [List.flatMap_map, ← List.flatMap_id]
      exact List.flatMap_congr split
    -- Each item was spelled by its own word, so the words are read as the items in turn.
    have read : groups.flatten.mapM field.argument.readValue = .ok values := by
      refine Except.mapM_eq_ok.2 (spells.imp fun word value spelled => ?_)
      rw [Argument.readValue_eq_ok, argument_kind_of_list list]
      exact spelled.read
    obtain ⟨reads, rfl⟩ := mapM_readValue_eq_ok.1 read
    refine ⟨by simpa using given, ?_, ?_, .inl (argument_of_list list).1⟩
    · intro word member part inWord
      obtain ⟨group, inGroups, rfl⟩ := List.mem_map.1 member
      rw [split group inGroups] at inWord
      exact reads part (List.mem_flatten.2 ⟨group, inGroups, inWord⟩)
    · rw [parts, FieldType.bundle_list list]

end EditableField

end SignalExchange
