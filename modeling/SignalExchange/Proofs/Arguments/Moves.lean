import Mathlib.Logic.Relation
import SignalExchange.Arguments.Parse
import SignalExchange.Proofs.Except

/-! What the words of a command line do.

A word calls an argument by its long name, as one of a cluster of short names, or by standing in its
place. Whatever the words are, the progress of a command comes about by a few moves, and what each
of them keeps is so in the end.
-/

set_option autoImplicit false

namespace SignalExchange

open Relation

namespace Argument

/-- An occurrence with these words brings these values. -/
structure Brings (argument : Argument) (words : List String) (values : List Json) : Prop where
  fits : argument.countFits words = .ok ()
  values : (argument.action = .setTrue ∧ values = [.boolean true]) ∨
    ((argument.action = .set ∨ argument.action = .append) ∧
      (argument.valueWords words).mapM argument.readValue = .ok values)

end Argument

namespace Command

/-- The word begins an occurrence of the argument. -/
inductive Calls (command : Command) (word : String) : Argument → Prop where
  | long {name : List Char} {argument : Argument} (spelled : word.toList = '-' :: '-' :: name)
      (found : command.byLong? (splitLong name).1 = some argument) : Calls command word argument
  | short {cluster : List Char} {c : Char} {argument : Argument}
      (spelled : word.toList = '-' :: cluster) (member : c ∈ cluster)
      (found : command.byShort? c = some argument) : Calls command word argument
  | placed {argument : Argument} (member : argument ∈ command.positionals) :
      Calls command word argument

/-- One thing that a word among these, or the end of them, does to the progress. -/
inductive Move (command : Command) (words : List String) : Progress → Progress → Prop where
  | settle {progress next : Progress} {argument : Argument} {taken : List String}
      (pending : progress.pending = some (argument, taken))
      (done : command.take argument taken { progress with pending := none } = .ok next) :
      Move command words progress next
  | take {progress next : Progress} {argument : Argument} {taken : List String} {word : String}
      (settled : progress.pending = none) (given : word ∈ words)
      (calls : command.Calls word argument)
      (done : command.take argument taken progress = .ok next) : Move command words progress next
  | await {progress : Progress} {argument : Argument} {word : String}
      (settled : progress.pending = none) (given : word ∈ words)
      (calls : command.Calls word argument) :
      Move command words progress { progress with pending := some (argument, []) }
  | gather {progress : Progress} {argument : Argument} {taken : List String}
      (pending : progress.pending = some (argument, taken)) (word : String) :
      Move command words progress { progress with pending := some (argument, taken ++ [word]) }
  | trail {progress : Progress} : Move command words progress { progress with trailing := true }
  | place {progress : Progress} :
      Move command words progress { progress with placed := progress.placed + 1 }

abbrev Moves (command : Command) (words : List String) : Progress → Progress → Prop :=
  ReflTransGen (command.Move words)

variable {command : Command} {words taken : List String} {progress next : Progress}
  {argument : Argument} {word : String}

theorem Moves.preserves {P : Progress → Prop}
    (keeps : ∀ progress next, command.Move words progress next → P progress → P next)
    (moves : command.Moves words progress next) (holds : P progress) : P next := by
  induction moves with
  | refl => exact holds
  | tail _ move ih => exact keeps _ _ move ih

theorem mem_allArguments_of_calls (calls : command.Calls word argument) :
    argument ∈ command.allArguments := by
  cases calls with
  | long _ found => exact List.mem_of_find?_eq_some found
  | short _ _ found => exact List.mem_of_find?_eq_some found
  | placed member => exact List.mem_append_left _ (List.mem_of_mem_filter member)

theorem brings_of_take (done : command.take argument taken progress = .ok next) :
    ∃ values, argument.Brings taken values ∧
      next = progress.record command argument.id values := by
  unfold take at done
  obtain ⟨_, fits, done⟩ := Except.bind_eq_ok.1 done
  -- Help and the version end the parse, and every other action records values.
  cases action : argument.action with
  | showHelp =>
    rw [action] at done
    cases done
  | showVersion =>
    rw [action] at done
    cases done
  | setTrue =>
    simp only [action] at done
    split at done
    · cases done
    · cases done
      exact ⟨_, ⟨fits, .inl ⟨action, rfl⟩⟩, rfl⟩
  | set =>
    simp only [action] at done
    split at done
    · cases done
    · obtain ⟨values, read, same⟩ := Except.bind_eq_ok.1 done
      cases same
      exact ⟨values, ⟨fits, .inr ⟨.inl action, read⟩⟩, rfl⟩
  | append =>
    simp only [action] at done
    obtain ⟨values, read, same⟩ := Except.bind_eq_ok.1 done
    cases same
    exact ⟨values, ⟨fits, .inr ⟨.inr action, read⟩⟩, rfl⟩

theorem pending_of_take (done : command.take argument taken progress = .ok next) :
    next.pending = progress.pending := by
  obtain ⟨values, -, rfl⟩ := brings_of_take done
  rfl

theorem moves_of_settle (done : command.settle progress = .ok next) :
    command.Moves words progress next ∧ next.pending = none := by
  unfold settle at done
  split at done
  next settled =>
    cases done
    exact ⟨.refl, settled⟩
  next argument taken pending =>
    exact ⟨.single (.settle pending done), pending_of_take done⟩

section

variable (given : word ∈ words) (calls : command.Calls word argument)

include given calls

theorem moves_of_settleAndTake (done : command.settleAndTake argument taken progress = .ok next) :
    command.Moves words progress next := by
  obtain ⟨middle, settles, done⟩ := Except.bind_eq_ok.1 done
  obtain ⟨moves, settled⟩ := moves_of_settle settles
  exact moves.tail (.take settled given calls done)

theorem moves_of_begin {attached : Option String}
    (done : command.begin argument attached progress = .ok next) :
    command.Moves words progress next := by
  unfold begin at done
  split at done
  · exact moves_of_settleAndTake given calls done
  · split at done
    · split at done
      · exact moves_of_settleAndTake given calls done
      · cases done
    · obtain ⟨middle, settles, rfl⟩ := Except.map_eq_ok.1 done
      obtain ⟨moves, settled⟩ := moves_of_settle settles
      exact moves.tail (.await settled given calls)

end

section

variable (given : word ∈ words)

include given

theorem moves_of_takeLong {name : List Char} (spelled : word.toList = '-' :: '-' :: name)
    (done : command.takeLong name progress = .ok next) : command.Moves words progress next := by
  unfold takeLong at done
  simp only at done
  split at done
  · cases done
  next argument found =>
    have calls : command.Calls word argument := .long spelled found
    split at done
    · exact moves_of_begin given calls done
    · split at done
      · cases done
      · exact moves_of_settleAndTake given calls done

theorem moves_of_takeShorts {cluster rest : List Char} (spelled : word.toList = '-' :: cluster)
    (within : ∀ c ∈ rest, c ∈ cluster) (done : command.takeShorts rest progress = .ok next) :
    command.Moves words progress next := by
  induction rest generalizing progress with
  | nil =>
    cases done
    exact .refl
  | cons c rest ih =>
    rw [List.forall_mem_cons] at within
    rw [takeShorts] at done
    split at done
    · cases done
    next argument found =>
      have calls : command.Calls word argument := .short spelled within.1 found
      split at done
      · exact moves_of_begin given calls done
      · obtain ⟨middle, taken, done⟩ := Except.bind_eq_ok.1 done
        exact (moves_of_settleAndTake given calls taken).trans (ih within.2 done)

theorem moves_of_takePositional (done : command.takePositional word progress = .ok next) :
    command.Moves words progress next := by
  unfold takePositional at done
  split at done
  · split at done <;> cases done
  next argument found =>
    obtain ⟨middle, taken, same⟩ := Except.bind_eq_ok.1 done
    cases same
    have calls : command.Calls word argument := .placed (List.mem_of_getElem? found)
    exact (moves_of_settleAndTake given calls taken).tail .place

omit given in
theorem pending_of_gathering? (gathering : progress.gathering? = some (argument, taken)) :
    progress.pending = some (argument, taken) := by
  unfold Progress.gathering? at gathering
  split at gathering
  next pending =>
    split at gathering
    · cases gathering
      exact pending
    · cases gathering
  · cases gathering

theorem moves_of_takeWord (done : command.takeWord word progress = .ok next) :
    command.Moves words progress next := by
  unfold takeWord at done
  split at done
  · cases done
    exact .single .trail
  next spelled => exact moves_of_takeLong given spelled done
  next spelled => exact moves_of_takeShorts given spelled (fun _ member => member) done
  next gathering _ _ _ =>
    cases done
    exact .single (.gather (pending_of_gathering? gathering) word)
  · exact moves_of_takePositional given done

theorem moves_of_step (done : command.step word progress = .ok (.proceed next)) :
    command.Moves words progress next := by
  unfold step at done
  split at done
  · obtain ⟨after, taken, same⟩ := Except.map_eq_ok.1 done
    cases same
    exact moves_of_takePositional given taken
  · split at done
    · cases done
    · split at done
      · cases done
      · obtain ⟨after, taken, same⟩ := Except.map_eq_ok.1 done
        cases same
        exact moves_of_takeWord given taken

end

theorem moves_of_close {sub : Option (String × Matches)} {found : Matches}
    (done : command.close sub progress = .ok found) :
    ∃ last, command.Moves words progress last ∧ last.pending = none ∧
      found.values = last.values := by
  unfold close at done
  obtain ⟨last, settles, done⟩ := Except.bind_eq_ok.1 done
  obtain ⟨moves, settled⟩ := moves_of_settle settles
  refine ⟨last, moves, settled, ?_⟩
  repeat' split at done
  all_goals cases done
  rfl

theorem moves_of_parseFrom {rest : List String} (within : ∀ word ∈ rest, word ∈ words)
    {found : Matches} (done : parseFrom rest command progress = .ok found) :
    ∃ last, command.Moves words progress last ∧ last.pending = none ∧
      found.values = last.values := by
  -- A subcommand takes the rest of the words, but what it matches is kept apart.
  induction rest generalizing progress with
  | nil => exact moves_of_close done
  | cons word rest ih =>
    rw [List.forall_mem_cons] at within
    rw [parseFrom] at done
    obtain ⟨what, stepped, done⟩ := Except.bind_eq_ok.1 done
    cases what with
    | explain => cases done
    | proceed middle =>
      obtain ⟨last, moves, settled, same⟩ := ih within.2 done
      exact ⟨last, (moves_of_step within.1 stepped).trans moves, settled, same⟩
    | enter sub =>
      obtain ⟨inner, -, closed⟩ := Except.bind_eq_ok.1 done
      exact moves_of_close closed

theorem moves_of_parse {found : Matches} (parsed : command.parse words = .ok found) :
    ∃ last, command.Moves words .start last ∧ last.pending = none ∧ found.values = last.values :=
  moves_of_parseFrom (fun _ member => member) parsed

end Command

end SignalExchange
