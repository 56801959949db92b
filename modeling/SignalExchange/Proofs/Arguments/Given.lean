import SignalExchange.Proofs.Arguments.Occurrences

/-! What a command line gives to an argument that is called by its long name alone.

The words tell it without being matched. The argument occurs where its name stands before any `--`:
with the value attached to the name, or else with the words behind it that can be its values.
-/

set_option autoImplicit false

namespace SignalExchange

/-- The word cannot be taken for the name of an argument. -/
def isPlain (word : String) : Bool :=
  match word.toList with
  | '-' :: _ :: _ => false
  | _ => true

/-- The words before any `--`. -/
def leadingWords (words : List String) : List String := words.takeWhile (· ≠ "--")

namespace Argument

/-- What is attached to the long name of the argument, if the word is that name. -/
def named? (argument : Argument) (word : String) : Option (Option String) :=
  match word.toList with
  | '-' :: '-' :: long =>
    if argument.long = some (Command.splitLong long).1 then some (Command.splitLong long).2
    else none
  | _ => none

def room (argument : Argument) : Nat := if argument.requireEquals then 0 else argument.greatest

/-- The words that are given to each occurrence of the argument. -/
def given (argument : Argument) : List String → List (List String)
  | [] => []
  | word :: rest =>
    if word = "--" then []
    else
      match argument.named? word with
      | some (some value) => [value] :: argument.given rest
      | some none => (rest.takeWhile isPlain).take argument.room :: argument.given rest
      | none => argument.given rest

variable {argument : Argument}

open Command

theorem plain_of_unmarked {word : String}
    (unmarked : ∀ short rest, word.toList = '-' :: short :: rest → False) :
    isPlain word = true ∧ word ≠ "--" ∧ argument.named? word = none := by
  refine ⟨?_, ?_, ?_⟩
  · unfold isPlain
    split
    next short rest spelled => exact (unmarked short rest spelled).elim
    next => rfl
  · rintro rfl
    exact unmarked '-' [] rfl
  · unfold named?
    split
    next long spelled => exact (unmarked '-' long spelled).elim
    next => rfl

theorem unmarked_of_plain {word : String} (plain : isPlain word = true) :
    ∀ short rest, word.toList = '-' :: short :: rest → False := by
  intro short rest spelled
  simp [isPlain, spelled] at plain

theorem given_cons_of_unnamed {word : String} (noEnd : word ≠ "--")
    (unnamed : argument.named? word = none) (rest : List String) :
    argument.given (word :: rest) = argument.given rest := by
  simp [given, noEnd, unnamed]

theorem given_of_closed (closed : argument.room = 0) (words : List String) :
    argument.given words =
      (leadingWords words).filterMap fun word => (argument.named? word).map Option.toList := by
  induction words with
  | nil => rfl
  | cons word rest ih =>
    by_cases isEnd : word = "--"
    · simp [given, leadingWords, isEnd]
    · unfold leadingWords at ih ⊢
      rw [given, if_neg isEnd, List.takeWhile_cons_of_pos (by simpa using isEnd),
        List.filterMap_cons]
      rcases argument.named? word with _ | _ | value <;> simp [ih, closed]

/-- The word is the name of the argument, alone or with a value behind an equals sign. -/
theorem named?_eq_some_iff {name word : String} {attached : Option String}
    (long : argument.long = some name) (plain : '=' ∉ name.toList) :
    argument.named? word = some attached ↔
      word = "--" ++ name ++ attached.elim "" ("=" ++ ·) := by
  constructor
  · intro named
    unfold named? at named
    split at named
    next rest spelled =>
      rw [long] at named
      split at named
      next same =>
        cases named
        have isName : name.toList = (splitLong rest).1.toList :=
          congrArg String.toList (Option.some.inj same)
        refine String.toList_injective ?_
        -- The first equals sign ends the name, since the name has none.
        rcases eq_of_splitLong rest with bare | ⟨value, attached⟩
        · rw [← isName] at bare
          rw [spelled, bare, splitLong_bare plain]
          simp
        · rw [← isName] at attached
          rw [spelled, attached, splitLong_attached plain]
          simp
      next => cases named
    next => cases named
  · rintro rfl
    cases attached with
    | none => simp [named?, splitLong_bare plain, long]
    | some value =>
      have spelled : ("--" ++ name ++ ("=" ++ value)).toList =
          '-' :: '-' :: (name.toList ++ '=' :: value.toList) := by simp
      simp [named?, spelled, splitLong_attached plain, long]

theorem mem_given_of_closed {name : String} (closed : argument.room = 0)
    (long : argument.long = some name) (plain : '=' ∉ name.toList) {words taken : List String} :
    taken ∈ argument.given words ↔ taken = [] ∧ "--" ++ name ∈ leadingWords words ∨
      ∃ value, taken = [value] ∧ "--" ++ name ++ ("=" ++ value) ∈ leadingWords words := by
  simp only [given_of_closed closed, List.mem_filterMap, Option.map_eq_some_iff,
    named?_eq_some_iff long plain]
  constructor
  · rintro ⟨_, member, _ | value, rfl, rfl⟩
    · exact .inl ⟨rfl, by simpa using member⟩
    · exact .inr ⟨value, rfl, member⟩
  · rintro (⟨rfl, member⟩ | ⟨value, rfl, member⟩)
    · exact ⟨_, member, none, by simp, rfl⟩
    · exact ⟨_, member, some value, rfl, rfl⟩

theorem length_le_given (closed : argument.room = 0) {words some : List String}
    (among : some.Sublist (leadingWords words))
    (names : ∀ word ∈ some, argument.named? word ≠ none) :
    some.length ≤ (argument.given words).length := by
  have all : (some.filterMap fun word => (argument.named? word).map Option.toList).length =
      some.length := by
    rw [List.length_filterMap_eq_countP, List.countP_eq_length]
    intro word member
    simpa [Option.isSome_iff_ne_none] using names word member
  rw [given_of_closed closed, ← all]
  exact (among.filterMap _).length_le

end Argument

end SignalExchange
