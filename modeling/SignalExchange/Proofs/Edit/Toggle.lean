import SignalExchange.Proofs.Arguments.Accounts
import SignalExchange.Proofs.Edit.Request

/-! The toggle of an edit command.

A record is enabled or disabled by one word of the line at most. Whatever stands around it, the
toggle that an edit reports is what that word asks.
-/

set_option autoImplicit false

namespace SignalExchange

namespace Surface

/-- The word turns the record on or off. -/
def Toggles (word : String) : Prop :=
  word = "--enable" ∨ (∃ value, word = "--enable=" ++ value) ∨ word = "--disable"

/-- The state that such a word asks for. A value stands for the integer that it is read as. -/
inductive Asks : String → Nat → Prop where
  | enable : Asks "--enable" 1
  | attached {value : String} {state : Nat} (read : Integer.read value.toList = .ok state) :
      Asks ("--enable=" ++ value) state
  | disable : Asks "--disable" 0

def enableArgument : Argument := (Switch.toggle .enable).argument

def disableArgument : Argument := (Switch.toggle .disable).argument

section

variable {api : String} {fields : List EditableField}
  (free : ∀ field ∈ fields, ¬clashes reserved field)

include free

theorem reserves_fixed {argument : Argument} (long : ∃ name ∈ reserved, argument.long = some name)
    (short : argument.short = none) (isReserved : argument.id ∈ reserved)
    (alone : ∀ other ∈ sharedArguments,
      other.id = argument.id ∨ other.long = argument.long → other = argument) :
    (commandFor api fields).Reserves argument := by
  obtain ⟨name, nameReserved, named⟩ := long
  refine ⟨by simp [named], short, fun other inCommand same => ?_⟩
  rcases List.mem_append.1 (allArguments_commandFor.mem_iff.1 inCommand) with isField | isShared
  · obtain ⟨field, inFields, rfl⟩ := List.mem_map.1 isField
    -- Neither the name nor the flag of a field is reserved.
    refine absurd ?_ (free field inFields)
    rw [EditableField.argument_id, EditableField.argument_long, named, Option.some_inj] at same
    rcases same with isId | isName
    · simp [clashes, isId, isReserved]
    · simp [clashes, isName, nameReserved]
  · exact alone other isShared same

theorem reserves_enable : (commandFor api fields).Reserves enableArgument :=
  reserves_fixed free ⟨"enable", by decide, rfl⟩ rfl (by decide) (by decide)

theorem reserves_disable : (commandFor api fields).Reserves disableArgument :=
  reserves_fixed free ⟨"disable", by decide, rfl⟩ rfl (by decide) (by decide)

end

theorem room_enable : enableArgument.room = 0 := rfl

theorem room_disable : disableArgument.room = 0 := rfl

variable {words taken : List String} {word : String}

theorem mem_given_enable : taken ∈ enableArgument.given words ↔
    taken = [] ∧ "--enable" ∈ leadingWords words ∨
      ∃ value, taken = [value] ∧ "--enable=" ++ value ∈ leadingWords words := by
  have iff := @Argument.mem_given_of_closed enableArgument "enable" room_enable rfl (by decide)
    words taken
  simpa [← String.append_assoc] using iff

theorem mem_given_disable : taken ∈ disableArgument.given words ↔
    taken = [] ∧ "--disable" ∈ leadingWords words ∨
      ∃ value, taken = [value] ∧ "--disable=" ++ value ∈ leadingWords words := by
  have iff := @Argument.mem_given_of_closed disableArgument "disable" room_disable rfl (by decide)
    words taken
  simpa [← String.append_assoc] using iff

theorem Toggles.named (toggles : Toggles word) :
    enableArgument.named? word ≠ none ∨ disableArgument.named? word ≠ none := by
  have enables {attached : Option String} :=
    @Argument.named?_eq_some_iff enableArgument "enable" word attached rfl (by decide)
  have disables {attached : Option String} :=
    @Argument.named?_eq_some_iff disableArgument "disable" word attached rfl (by decide)
  simp only [Option.ne_none_iff_exists', enables, disables]
  rcases toggles with rfl | ⟨value, rfl⟩ | rfl
  · exact .inl ⟨none, by simp⟩
  · exact .inl ⟨some value, by simp [← String.append_assoc]⟩
  · exact .inr ⟨none, by simp⟩

theorem two_le_of_toggles {first second : String}
    (among : [first, second].Sublist (leadingWords words)) (one : Toggles first)
    (other : Toggles second) :
    2 ≤ (enableArgument.given words).length + (disableArgument.given words).length := by
  have firstAmong : [first].Sublist (leadingWords words) :=
    (List.singleton_sublist.2 (List.mem_cons_self ..)).trans among
  have secondAmong : [second].Sublist (leadingWords words) :=
    (List.sublist_cons_self ..).trans among
  rcases one.named with firstOn | firstOff
  · rcases other.named with secondOn | secondOff
    · have on := Argument.length_le_given room_enable among (by simp [firstOn, secondOn])
      rw [List.length_cons, List.length_singleton] at on
      omega
    · have on := Argument.length_le_given room_enable firstAmong (by simp [firstOn])
      have off := Argument.length_le_given room_disable secondAmong (by simp [secondOff])
      rw [List.length_singleton] at on off
      omega
  · rcases other.named with secondOn | secondOff
    · have off := Argument.length_le_given room_disable firstAmong (by simp [firstOff])
      have on := Argument.length_le_given room_enable secondAmong (by simp [secondOn])
      rw [List.length_singleton] at on off
      omega
    · have off := Argument.length_le_given room_disable among (by simp [firstOff, secondOff])
      rw [List.length_cons, List.length_singleton] at off
      omega

/-- What is given to the two arguments, and the toggle that is read from it. -/
inductive Toggled : List (List String) → List (List String) → Option Nat → Prop where
  | untouched : Toggled [] [] none
  | enabled : Toggled [[]] [] (some 1)
  | attached {value : String} {state : Nat} (read : Integer.read value.toList = .ok state)
      (bit : state = 0 ∨ state = 1) : Toggled [[value]] [] (some state)
  | disabled : Toggled [] [[]] (some 0)

theorem Toggled.once {on off : List (List String)} {toggle : Option Nat}
    (toggled : Toggled on off toggle) : on.length + off.length ≤ 1 := by
  cases toggled <;> simp

theorem exists_asks_iff {state : Nat} : (∃ word ∈ leadingWords words, Asks word state) ↔
    [] ∈ enableArgument.given words ∧ state = 1 ∨
    (∃ value, [value] ∈ enableArgument.given words ∧ Integer.read value.toList = .ok state) ∨
    [] ∈ disableArgument.given words ∧ state = 0 := by
  simp only [mem_given_enable, mem_given_disable]
  constructor
  · rintro ⟨word, member, asks⟩
    cases asks with
    | enable => simp [member]
    | attached read => exact .inr (.inl ⟨_, .inr ⟨_, rfl, member⟩, read⟩)
    | disable => simp [member]
  · rintro (⟨given, rfl⟩ | ⟨value, given, read⟩ | ⟨given, rfl⟩)
    · exact ⟨_, by simpa using given, .enable⟩
    · exact ⟨_, by simpa using given, .attached read⟩
    · exact ⟨_, by simpa using given, .disable⟩

theorem exists_toggles_iff : (∃ word ∈ leadingWords words, Toggles word) ↔
    (∃ taken, taken ∈ enableArgument.given words) ∨ [] ∈ disableArgument.given words := by
  simp only [mem_given_enable, mem_given_disable]
  constructor
  · rintro ⟨word, member, rfl | ⟨value, rfl⟩ | rfl⟩
    · exact .inl ⟨_, .inl ⟨rfl, member⟩⟩
    · exact .inl ⟨_, .inr ⟨value, rfl, member⟩⟩
    · exact .inr (by simpa using member)
  · rintro (⟨taken, ⟨-, member⟩ | ⟨value, -, member⟩⟩ | given)
    · exact ⟨_, member, .inl rfl⟩
    · exact ⟨_, member, .inr (.inl ⟨value, rfl⟩)⟩
    · exact ⟨_, by simpa using given, .inr (.inr rfl)⟩

variable {api : String} {fields : List EditableField}

theorem read_toggle {value : String} {json : Json} (read : ValueKind.toggle.read value = .ok json) :
    ∃ state : Nat, json = .integer state ∧ Integer.read value.toList = .ok state ∧
      (state = 0 ∨ state = 1) := by
  obtain ⟨n, reads, bit⟩ := Except.bind_eq_ok.1 read
  have number : Integer.read value.toList = .ok n := Except.mapError_eq_ok.1 reads
  split at bit
  next within =>
    cases bit
    rcases within with rfl | rfl
    · exact ⟨0, rfl, number, .inl rfl⟩
    · exact ⟨1, rfl, number, .inr rfl⟩
  next => cases bit

theorem read_of_brings_enable {values : List Json} (brings : enableArgument.Brings taken values) :
    taken = [] ∧ values = [.integer 1] ∨ ∃ value, ∃ state : Nat, taken = [value] ∧
      values = [.integer state] ∧ Integer.read value.toList = .ok state ∧
      (state = 0 ∨ state = 1) := by
  have few : taken.length ≤ 1 := (Argument.length_of_brings brings).2
  have read := Argument.read_of_brings brings nofun rfl
  rcases taken with _ | ⟨value, _ | ⟨other, rest⟩⟩
  · obtain ⟨json, none, reads, ⟨⟩, rfl⟩ := List.forall₂_cons_left_iff.1 read
    cases reads
    exact .inl ⟨rfl, rfl⟩
  · obtain ⟨json, none, reads, ⟨⟩, rfl⟩ := List.forall₂_cons_left_iff.1 read
    obtain ⟨state, rfl, number, bit⟩ := read_toggle reads
    exact .inr ⟨value, state, rfl, rfl, number, bit⟩
  · simp at few

theorem eq_nil_of_brings_disable {values : List Json}
    (brings : disableArgument.Brings taken values) : taken = [] :=
  List.eq_nil_of_length_eq_zero (Nat.le_zero.1 (Argument.length_of_brings brings).2)

theorem toggled_of_matched {found : Matches} {on off : List (List String)}
    (enables : enableArgument.Matched on found.values)
    (disables : disableArgument.Matched off found.values)
    (apart : found.all? enableId = none ∨ found.all? disableId = none) :
    Toggled on off (toggle? found) := by
  obtain ⟨⟨brought, brings, enabled⟩, once⟩ := enables
  obtain ⟨⟨marks, switches, disabled⟩, onceOff⟩ := disables
  have enabled : found.all? enableId = _ := enabled
  have disabled : found.all? disableId = _ := disabled
  have fewOn := once.resolve_left nofun
  have fewOff := onceOff.resolve_left nofun
  -- The switch is looked at first. Where it stands the other argument does not.
  cases switches with
  | cons switch others =>
    cases eq_nil_of_brings_disable switch
    cases List.eq_nil_of_length_eq_zero (Nat.le_zero.1 (Nat.le_of_succ_le_succ fewOff))
    have none : on = [] := by simpa [enabled, disabled] using apart
    have off : toggle? found = some 0 := by simp [toggle?, Matches.isOn, disabled]
    rw [none, off]
    exact .disabled
  | nil =>
    have reads : toggle? found = (found.integer? enableId).map (·.toNat) := by
      simp [toggle?, Matches.isOn, disabled]
    cases brings with
    | nil =>
      have none : toggle? found = none := by
        simp [reads, Matches.integer?, Matches.first?, enabled]
      rw [none]
      exact .untouched
    | cons first others =>
      cases List.eq_nil_of_length_eq_zero (Nat.le_zero.1 (Nat.le_of_succ_le_succ fewOn))
      rcases read_of_brings_enable first with ⟨rfl, rfl⟩ | ⟨value, state, rfl, rfl, read, bit⟩
      · have one : toggle? found = some 1 := by
          simp [reads, Matches.integer?, Matches.first?, enabled]
        rw [one]
        exact .enabled
      · have same : toggle? found = some state := by
          simp [reads, Matches.integer?, Matches.first?, enabled]
        rw [same]
        exact .attached read bit

theorem toggled_of_parse (free : ∀ field ∈ fields, ¬clashes reserved field) {found : Matches}
    (parsed : (commandFor api fields).parse words = .ok found) :
    Toggled (enableArgument.given words) (disableArgument.given words) (toggle? found) := by
  obtain ⟨last, proceeds, closed⟩ := Command.closed_of_parse rfl parsed
  have enables := Argument.matched_of_close (reserves_enable free) proceeds closed
  have disables := Argument.matched_of_close (reserves_disable free) proceeds closed
  -- The two arguments stand against each other.
  have known : (commandFor api fields).byId? enableArgument.id = some enableArgument := rfl
  have among : toggleGroup ∈ (commandFor api fields).groupsOf enableArgument.id :=
    List.mem_singleton_self toggleGroup
  have apart := Command.held_of_group closed known among
    (by decide : disableId ∈ toggleGroup.members) (by decide)
  exact toggled_of_matched enables disables apart

theorem toggle?_of_editArgs {surface : Surface} {found : Matches} {args : EditArgs}
    (given : surface.editArgs found = .ok args) : args.enable = toggle? found := by
  unfold editArgs at given
  split at given
  · cases given
  · cases given
    rfl

/-- At most one word toggles the record, and the toggle of the edit is what that word asks for. A
field that is called like the group of the toggles would share its place among the matches. -/
theorem toggle_of_parse {surface : Surface} (built : build api fields = .ok surface)
    (words : List String) :
    (∀ first second, [first, second].Sublist (leadingWords words) → Toggles first →
      Toggles second → ∀ found, surface.command.parse words ≠ .ok found) ∧
    ((∀ field ∈ fields, field.name ≠ toggleGroup.id) →
      ∀ found args, surface.command.parse words = .ok found → surface.editArgs found = .ok args →
        (∀ state, args.enable = some state ↔ ∃ word ∈ leadingWords words, Asks word state) ∧
        (∀ state, args.enable = some state → state = 0 ∨ state = 1) ∧
        (args.enable = none ↔ ∀ word ∈ leadingWords words, ¬Toggles word)) := by
  obtain ⟨free, rfl⟩ := build_eq_ok.1 built
  refine ⟨fun first second among one other found parsed => ?_,
    fun _ found args parsed given => ?_⟩
  · have once := (toggled_of_parse free parsed).once
    have both := two_le_of_toggles among one other
    omega
  · have toggled := toggled_of_parse free parsed
    have notToggled : (∀ word ∈ leadingWords words, ¬Toggles word) ↔
      ¬∃ word ∈ leadingWords words, Toggles word := by simp
    rw [toggle?_of_editArgs given]
    simp only [exists_asks_iff, notToggled, exists_toggles_iff]
    -- What is left to show is the same for each of the four ways to toggle, or not to.
    generalize enableArgument.given words = on at *
    generalize disableArgument.given words = off at *
    generalize toggle? found = toggle at *
    cases toggled with
    | untouched => simp
    | enabled => simp [eq_comm]
    | attached read bit => simpa [read, Int.natCast_inj] using bit
    | disabled => simp [eq_comm]

def noteField : EditableField :=
  { name := "note", type := .text, default := none, placeholder := "STR", help := "" }

/-- The value of a field is no toggle, even if it looks like one. -/
theorem toggle_beside_value : ∃ surface found args,
    build "demo" [noteField] = .ok surface ∧
    surface.command.parse ["c", "--note=--disable", "--enable"] = .ok found ∧
    surface.editArgs found = .ok args ∧ args.enable = some 1 ∧
    (∃ word ∈ leadingWords ["c", "--note=--disable", "--enable"], Asks word 1) ∧
    ∀ found, surface.command.parse ["c", "--enable=0", "--note=x", "--disable"] ≠ .ok found := by
  have run : ∃ surface found args, build "demo" [noteField] = .ok surface ∧
      surface.command.parse ["c", "--note=--disable", "--enable"] = .ok found ∧
      surface.editArgs found = .ok args ∧ args.enable = some 1 :=
    ⟨_, .mk [("collab_name", [.string "c"]), ("note", [.string "--disable"]),
      ("enable", [.integer 1])] none, _, rfl, rfl, rfl, rfl⟩
  obtain ⟨surface, found, args, built, parsed, given, on⟩ := run
  have apart : ∀ field ∈ [noteField], field.name ≠ toggleGroup.id := by decide
  refine ⟨surface, found, args, built, parsed, given, on, ?_, ?_⟩
  · exact (((toggle_of_parse built _).2 apart found args parsed given).1 1).1 on
  · exact (toggle_of_parse built _).1 "--enable=0" "--disable" (by decide)
      (.inr (.inl ⟨"0", rfl⟩)) (.inr (.inr rfl))

/-- A value is read as an integer, so the words that ask for a state are not only the two plain
ones. -/
theorem toggle_of_padded_value : ∃ surface found args, build "demo" [] = .ok surface ∧
    surface.command.parse ["c", "--enable=01"] = .ok found ∧
    surface.editArgs found = .ok args ∧ args.enable = some 1 ∧
    "--enable" ∉ leadingWords ["c", "--enable=01"] ∧
    "--enable=1" ∉ leadingWords ["c", "--enable=01"] :=
  ⟨_, .mk [("collab_name", [.string "c"]), ("enable", [.integer 1])] none, _, rfl, rfl, rfl, rfl,
    by decide, by decide⟩

end Surface

end SignalExchange
