import SignalExchange.Proofs.Arguments.Moves

/-! What the arguments of a command line hold.

Whatever the words are, every value that is matched to a name was read by an argument of that name,
or is the mark of a switch.
-/

set_option autoImplicit false

namespace SignalExchange

namespace Argument

/-- A value that an occurrence of the argument can bring. -/
def Gives (argument : Argument) (value : Json) : Prop :=
  (argument.action = .setTrue ∧ value = .boolean true) ∨
    ∃ word, argument.kind.read word = .ok value

theorem readValue_eq_ok {argument : Argument} {word : String} {value : Json} :
    argument.readValue word = .ok value ↔ argument.kind.read word = .ok value := by
  unfold readValue
  cases argument.kind.read word with
  | ok other => simp
  | error fault => cases fault <;> simp

theorem split_ne_nil (argument : Argument) (word : String) : argument.split word ≠ [] := by
  unfold split
  cases argument.delimiter with
  | none => simp
  | some mark => simp [List.splitOn_ne_nil]

theorem valueWords_ne_nil (argument : Argument) {words : List String} (some : words ≠ []) :
    argument.valueWords words ≠ [] := by
  rw [valueWords, if_neg some]
  cases words with
  | nil => exact absurd rfl some
  | cons word rest => simp [split_ne_nil]

theorem given_of_countFits {argument : Argument} {words : List String}
    (fits : argument.countFits words = .ok ()) : words ≠ [] ∨ argument.least = 0 := by
  unfold countFits at fits
  split at fits
  · cases fits
  next given => simpa [Decidable.or_iff_not_imp_left] using given

theorem length_of_brings {argument : Argument} {words : List String} {values : List Json}
    (brings : argument.Brings words values) :
    argument.least ≤ words.length ∧ words.length ≤ argument.greatest := by
  have fits := brings.fits
  unfold countFits at fits
  split at fits
  · cases fits
  · split at fits
    next within => exact within
    next => cases fits

theorem read_of_brings {argument : Argument} {words : List String} {values : List Json}
    (brings : argument.Brings words values) (takes : argument.action ≠ .setTrue)
    (whole : argument.delimiter = none) :
    List.Forall₂ (fun word value => argument.kind.read word = .ok value)
      (if words = [] then argument.whenBare else words) values := by
  rcases brings.values with ⟨switch, -⟩ | ⟨-, read⟩
  · exact absurd switch takes
  · have single : argument.split = fun word => [word] := by
      funext word
      simp [split, whole]
    rw [valueWords, single, ← List.flatMap_def, List.flatMap_singleton', Except.mapM_eq_ok] at read
    simpa only [readValue_eq_ok] using read

end Argument

namespace Command

/-- Values that may stand under a name: arguments of the name bring them, and there is one unless
such an argument may stand without values. -/
structure Holds (command : Command) (id : String) (values : List Json) : Prop where
  given : values ≠ [] ∨ ∃ argument ∈ command.allArguments, argument.id = id ∧ argument.least = 0
  brought : ∀ value ∈ values, ∃ argument ∈ command.allArguments,
    argument.id = id ∧ argument.Gives value

theorem Holds.exists_argument {command : Command} {id : String} {values : List Json}
    (holds : command.Holds id values) : ∃ argument ∈ command.allArguments, argument.id = id := by
  rcases holds.given with some | ⟨argument, member, same, -⟩
  · obtain ⟨value, inValues⟩ := List.exists_mem_of_ne_nil values some
    obtain ⟨argument, member, same, -⟩ := holds.brought value inValues
    exact ⟨argument, member, same⟩
  · exact ⟨argument, member, same⟩

/-- Only arguments of the command have brought values, or are bringing them. -/
structure Sound (command : Command) (progress : Progress) : Prop where
  values : ∀ entry ∈ progress.values, command.Holds entry.1 entry.2
  pending : ∀ argument words, progress.pending = some (argument, words) →
    argument ∈ command.allArguments

variable {command : Command} {progress next : Progress} {argument : Argument}
  {words taken : List String}

theorem Sound.cleared (holds : ∀ entry ∈ progress.values, command.Holds entry.1 entry.2) :
    command.Sound { progress with pending := none } := by
  refine ⟨holds, fun argument words pending => ?_⟩
  cases pending

theorem start_sound : command.Sound .start := by
  refine ⟨fun entry member => ?_, fun argument words pending => ?_⟩
  · cases member
  · cases pending

theorem holds_append {id : String} {more : List Json} (holds : command.Holds id more)
    {entries : List (String × List Json)} (old : ∀ entry ∈ entries, command.Holds entry.1 entry.2) :
    ∀ entry ∈ Progress.append id more entries, command.Holds entry.1 entry.2 := by
  induction entries with
  | nil => simpa [Progress.append] using holds
  | cons entry rest ih =>
    obtain ⟨key, values⟩ := entry
    rw [List.forall_mem_cons] at old
    rw [Progress.append]
    split
    next same =>
      subst same
      rw [List.forall_mem_cons]
      refine ⟨⟨?_, fun value member => ?_⟩, old.2⟩
      · rcases old.1.given with some | bare
        · exact .inl fun none => some (List.append_eq_nil_iff.1 none).1
        · exact .inr bare
      · rcases List.mem_append.1 member with before | new
        · exact old.1.brought value before
        · exact holds.brought value new
    next =>
      rw [List.forall_mem_cons]
      exact ⟨old.1, ih old.2⟩

theorem Sound.record (sound : command.Sound progress) {id : String} {values : List Json}
    (holds : command.Holds id values) : command.Sound (progress.record command id values) :=
  ⟨holds_append holds sound.values, sound.pending⟩

theorem holds_of_brings (member : argument ∈ command.allArguments) {values : List Json}
    (brings : argument.Brings taken values) : command.Holds argument.id values := by
  obtain ⟨fits, ⟨action, rfl⟩ | ⟨-, read⟩⟩ := brings
  · refine ⟨.inl (by simp), fun value isMark => ?_⟩
    exact ⟨argument, member, rfl, .inl ⟨action, List.mem_singleton.1 isMark⟩⟩
  · constructor
    · rcases Argument.given_of_countFits fits with some | bare
      · refine .inl fun none => argument.valueWords_ne_nil some ?_
        have same := Except.length_of_mapM read
        rw [none, List.length_nil] at same
        exact List.eq_nil_of_length_eq_zero same.symm
      · exact .inr ⟨argument, member, rfl, bare⟩
    · intro value inValues
      obtain ⟨word, -, reads⟩ := Except.exists_of_mem_mapM read value inValues
      exact ⟨argument, member, rfl, .inr ⟨word, Argument.readValue_eq_ok.1 reads⟩⟩

theorem Sound.move (sound : command.Sound progress) (move : command.Move words progress next) :
    command.Sound next := by
  cases move with
  | settle pending done =>
    obtain ⟨values, brings, rfl⟩ := brings_of_take done
    exact (Sound.cleared sound.values).record
      (holds_of_brings (sound.pending _ _ pending) brings)
  | take _ _ calls done =>
    obtain ⟨values, brings, rfl⟩ := brings_of_take done
    exact sound.record (holds_of_brings (mem_allArguments_of_calls calls) brings)
  | await _ _ calls =>
    refine ⟨sound.values, fun other more pending => ?_⟩
    cases pending
    exact mem_allArguments_of_calls calls
  | gather before word =>
    refine ⟨sound.values, fun other more pending => ?_⟩
    cases pending
    exact sound.pending _ _ before
  | trail => exact ⟨sound.values, sound.pending⟩
  | place => exact ⟨sound.values, sound.pending⟩

theorem holds_of_parse {found : Matches} (parsed : command.parse words = .ok found) :
    ∀ entry ∈ found.values, command.Holds entry.1 entry.2 := by
  obtain ⟨last, moves, -, same⟩ := moves_of_parse parsed
  rw [same]
  exact (moves.preserves (fun _ _ move sound => sound.move move) start_sound).values

theorem holds_of_found {entries : List (String × List Json)}
    (each : ∀ entry ∈ entries, command.Holds entry.1 entry.2) {id : String} {values : List Json}
    (all : (entries.find? fun entry => entry.1 = id).map (·.2) = some values) :
    command.Holds id values := by
  obtain ⟨entry, first, rfl⟩ := Option.map_eq_some_iff.1 all
  have named : entry.1 = id := by simpa using List.find?_some first
  have holds := each entry (List.mem_of_find?_eq_some first)
  rwa [named] at holds

theorem holds_of_all? {words : List String} {found : Matches}
    (parsed : command.parse words = .ok found) {id : String} {values : List Json}
    (all : found.all? id = some values) : command.Holds id values :=
  holds_of_found (holds_of_parse parsed) all

end Command

end SignalExchange
