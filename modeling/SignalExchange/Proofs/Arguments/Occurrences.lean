import Mathlib.Data.List.Induction
import Mathlib.Data.List.TakeWhile
import SignalExchange.Proofs.Arguments.Parse

/-! The words of a command line one by one.

A switch, a long argument with its value attached, and a word in its place are each one occurrence
of an argument. The values of an argument are those of all its occurrences, one after another.
-/

set_option autoImplicit false

namespace SignalExchange

namespace Progress

/-- The values that stand under a name. -/
def held (id : String) (values : List (String × List Json)) : Option (List Json) :=
  (values.find? fun entry => entry.1 = id).map (·.2)

def gathered (entries : List (String × List Json)) : List (String × List Json) :=
  entries.foldl (fun values entry => append entry.1 entry.2 values) []

theorem gathered_concat (entries : List (String × List Json)) (last : String × List Json) :
    gathered (entries ++ [last]) = append last.1 last.2 (gathered entries) := by
  simp [gathered]

theorem mem_keys_append {id other : String} {more : List Json}
    {values : List (String × List Json)} :
    other ∈ (append id more values).map (·.1) ↔ other = id ∨ other ∈ values.map (·.1) := by
  induction values with
  | nil => simp [append]
  | cons entry rest ih =>
    obtain ⟨key, old⟩ := entry
    rw [append]
    split
    next same => simp [same]
    next => rw [List.map_cons, List.mem_cons, ih, List.map_cons, List.mem_cons, or_left_comm]

theorem mem_keys_gathered {id : String} {entries : List (String × List Json)} :
    id ∈ (gathered entries).map (·.1) ↔ id ∈ entries.map (·.1) := by
  induction entries using List.reverseRecOn with
  | nil => rfl
  | append_singleton entries last ih =>
    rw [gathered_concat, mem_keys_append, ih, List.map_append, List.mem_append, List.map_singleton,
      List.mem_singleton, or_comm]

theorem held_eq_none_iff {id : String} {values : List (String × List Json)} :
    held id values = none ↔ id ∉ values.map (·.1) := by
  rw [held, Option.map_eq_none_iff, List.find?_eq_none]
  simp only [decide_eq_true_eq, List.mem_map, not_exists, not_and]

theorem held_append (id other : String) (more : List Json) (values : List (String × List Json)) :
    held other (append id more values) =
      if other = id then some ((held id values).getD [] ++ more) else held other values := by
  induction values with
  | nil =>
    by_cases same : id = other
    · simp [append, held, same]
    · simp [append, held, same, Ne.symm same]
  | cons entry rest ih =>
    obtain ⟨key, old⟩ := entry
    unfold held at ih ⊢
    by_cases here : key = id
    · subst here
      by_cases same : key = other
      · simp [append, same]
      · simp [append, same, Ne.symm same]
    · by_cases same : key = other
      · subst same
        simp [append, here]
      · simp [append, here, same, ih]

theorem held_gathered (id : String) (entries : List (String × List Json)) :
    held id (gathered entries) =
      if id ∈ entries.map (·.1) then some ((entries.filter (·.1 = id)).flatMap (·.2))
      else none := by
  induction entries using List.reverseRecOn with
  | nil => rfl
  | append_singleton entries last ih =>
    obtain ⟨key, more⟩ := last
    rw [gathered_concat, held_append]
    by_cases same : id = key
    · subst same
      by_cases before : id ∈ entries.map (·.1)
      · simp [ih, before, List.filter_append]
      · have none : entries.filter (·.1 = id) = [] := by
          refine List.filter_eq_nil_iff.2 fun entry member isKey => ?_
          exact before (List.mem_map.2 ⟨entry, member, of_decide_eq_true isKey⟩)
        simp [ih, before, List.filter_append, none]
    -- An occurrence of another name changes nothing.
    · have keys : id ∈ (entries ++ [(key, more)]).map (·.1) ↔ id ∈ entries.map (·.1) := by
        rw [List.map_append, List.mem_append, List.map_singleton, List.mem_singleton]
        exact or_iff_left same
      have noLast : [(key, more)].filter (fun entry => entry.1 = id) = [] := by
        simp [Ne.symm same]
      rw [if_neg same, ih, List.filter_append, noLast, List.append_nil]
      simp only [keys]

/-- Between two occurrences: no values are being gathered, and not only places are left. -/
structure Ready (progress : Progress) : Prop where
  settled : progress.pending = none
  leading : progress.trailing = false

theorem Ready.gathering? {progress : Progress} (ready : progress.Ready) :
    progress.gathering? = none := by
  rw [Progress.gathering?, ready.settled]

end Progress

namespace Command

variable {command : Command} {progress : Progress} {argument : Argument}

theorem take_of_brings {words : List String} {values : List Json}
    (brings : argument.Brings words values)
    (free : argument.action = .append ∨ progress.isGiven argument.id = false) :
    command.take argument words progress =
      .ok (progress.record command argument.id values) := by
  obtain ⟨fits, ⟨action, rfl⟩ | ⟨action | action, reads⟩⟩ := brings
  · have fresh := free.resolve_left (by simp [action])
    simp [take, fits, action, fresh]
  · have fresh := free.resolve_left (by simp [action])
    simp [take, fits, action, fresh, reads]
  · simp [take, fits, action, reads]

theorem settle_of_ready (ready : progress.Ready) : command.settle progress = .ok progress := by
  rw [settle, ready.settled]

theorem settleAndTake_of_ready (ready : progress.Ready) (words : List String) :
    command.settleAndTake argument words progress = command.take argument words progress := by
  rw [settleAndTake, settle_of_ready ready]
  rfl

theorem step_of_ready (flat : command.subcommands = []) (ready : progress.Ready) (word : String) :
    command.step word progress = (command.takeWord word progress).map .proceed := by
  simp [step, ready.leading, ready.gathering?, subcommand?, hasSubcommands, flat]

theorem takeWord_of_long (ready : progress.Ready) {word : String} {long : List Char}
    (some : long ≠ []) (spelled : word.toList = '-' :: '-' :: long) :
    command.takeWord word progress = command.takeLong long progress := by
  obtain ⟨c, rest, rfl⟩ := List.exists_cons_of_ne_nil some
  rw [takeWord, spelled, ready.gathering?]
  rfl

theorem takeWord_of_place (ready : progress.Ready) {word : String}
    (plain : word.toList.head? ≠ some '-') :
    command.takeWord word progress = command.takePositional word progress := by
  rw [takeWord, ready.gathering?]
  split
  next spelled => simp [spelled] at plain
  next spelled => simp [spelled] at plain
  next spelled => simp [spelled] at plain
  next gathering _ _ _ => cases gathering
  next => rfl

theorem ne_equals_of_notMem {name : List Char} (plain : '=' ∉ name) :
    ∀ c ∈ name, decide (c ≠ '=') = true := fun _ member =>
  decide_eq_true fun isEqual => plain (isEqual ▸ member)

theorem splitLong_attached {name : List Char} (plain : '=' ∉ name) (value : List Char) :
    splitLong (name ++ '=' :: value) = (String.ofList name, some (String.ofList value)) := by
  have all := ne_equals_of_notMem plain
  simp only [splitLong, List.takeWhile_append_of_pos all, List.dropWhile_append_of_pos all]
  simp

theorem splitLong_bare {name : List Char} (plain : '=' ∉ name) :
    splitLong name = (String.ofList name, none) := by
  have all := ne_equals_of_notMem plain
  simp only [splitLong, List.takeWhile_eq_self_iff.2 all, List.dropWhile_eq_nil_iff.2 all]

theorem eq_of_splitLong (word : List Char) : word = (splitLong word).1.toList ∨
    ∃ value, word = (splitLong word).1.toList ++ '=' :: value := by
  have whole : (splitLong word).1.toList ++ word.dropWhile (· ≠ '=') = word := by
    rw [splitLong, String.toList_ofList, List.takeWhile_append_dropWhile]
  cases rest : word.dropWhile (· ≠ '=') with
  | nil =>
    rw [rest, List.append_nil] at whole
    exact .inl whole.symm
  | cons mark value =>
    have isMark : mark = '=' := by
      have stops := List.head?_dropWhile_not (fun c => decide (c ≠ '=')) word
      rw [rest] at stops
      simpa using stops
    rw [rest, isMark] at whole
    exact .inr ⟨value, whole.symm⟩

section

variable {name : String} (found : command.byLong? name = some argument)
  (plain : '=' ∉ name.toList) (ready : progress.Ready)

include found plain ready

theorem takeLong_attached (takes : argument.takesValue = true) (value : String) :
    command.takeLong (name.toList ++ '=' :: value.toList) progress =
      command.take argument [value] progress := by
  simp [takeLong, splitLong_attached plain, found, takes, begin, settleAndTake_of_ready ready]

theorem takeLong_bare (bare : argument.takesValue = false ∨
    (argument.requireEquals = true ∧ argument.least = 0)) :
    command.takeLong name.toList progress = command.take argument [] progress := by
  rcases bare with switch | ⟨attached, optional⟩
  · simp [takeLong, splitLong_bare plain, found, switch, settleAndTake_of_ready ready]
  · by_cases takes : argument.takesValue = true
    · simp [takeLong, splitLong_bare plain, found, takes, begin, attached, optional,
        settleAndTake_of_ready ready]
    · simp [takeLong, splitLong_bare plain, found, takes, settleAndTake_of_ready ready]

end

end Command

/-- A word that is one occurrence of an argument, and the values that it brings. -/
structure Occurrence where
  word : String
  argument : Argument
  values : List Json

namespace Occurrence

def id (occurrence : Occurrence) : String := occurrence.argument.id

def entry (occurrence : Occurrence) : String × List Json := (occurrence.id, occurrence.values)

/-- The word is read as an occurrence of the argument. -/
inductive Of (command : Command) : Occurrence → Prop where
  | attached {name value : String} {argument : Argument} {values : List Json}
      (found : command.byLong? name = some argument) (plain : '=' ∉ name.toList)
      (takes : argument.takesValue = true) (brings : argument.Brings [value] values) :
      Of command ⟨"--" ++ name ++ "=" ++ value, argument, values⟩
  | bare {name : String} {argument : Argument} {values : List Json} (full : name ≠ "")
      (found : command.byLong? name = some argument) (plain : '=' ∉ name.toList)
      (bare : argument.takesValue = false ∨ (argument.requireEquals = true ∧ argument.least = 0))
      (brings : argument.Brings [] values) :
      Of command ⟨"--" ++ name, argument, values⟩
  | placed {word : String} {argument : Argument} {values : List Json}
      (only : command.positionals = [argument]) (once : argument.action = .set)
      (plain : word.toList.head? ≠ some '-') (brings : argument.Brings [word] values) :
      Of command ⟨word, argument, values⟩

end Occurrence

namespace Progress

/-- The progress after the words of these occurrences. -/
def after (command : Command) (done : List Occurrence) : Progress where
  values := gathered (done.map (·.entry))
  groups := done.flatMap fun occurrence => (command.groupsOf occurrence.id).map (·.id)
  pending := none
  trailing := false
  placed := done.countP (·.argument.isPositional)

variable {command : Command} {done : List Occurrence}

theorem after_ready : (after command done).Ready := ⟨rfl, rfl⟩

theorem after_concat (last : Occurrence) :
    after command (done ++ [last]) =
      { (after command done).record command last.id last.values with
        placed := (after command done).placed + if last.argument.isPositional then 1 else 0 } := by
  simp [after, record, gathered_concat, Occurrence.entry, List.countP_singleton]

theorem mem_keys_after {id : String} :
    id ∈ (after command done).values.map (·.1) ↔ id ∈ done.map (·.id) := by
  have keys : (done.map (·.entry)).map (·.1) = done.map (·.id) := by
    rw [List.map_map]
    rfl
  rw [after, mem_keys_gathered, keys]

theorem isGiven_after_eq_false {id : String} (apart : id ∉ command.groups.map (·.id)) :
    (after command done).isGiven id = false ↔ id ∉ done.map (·.id) := by
  have noGroup : id ∉ (after command done).groups := by
    intro member
    obtain ⟨occurrence, -, inGroups⟩ := List.mem_flatMap.1 member
    obtain ⟨group, groupOf, rfl⟩ := List.mem_map.1 inGroups
    exact apart (List.mem_map_of_mem (List.mem_of_mem_filter groupOf))
  rw [isGiven, decide_eq_false noGroup, Bool.or_false, decide_eq_false_iff_not, mem_keys_after]

end Progress

namespace Command

variable {command : Command} {done all : List Occurrence} {next : Occurrence}

/-- Occurrences that may stand on one command line, in this order. -/
structure Permits (command : Command) (all : List Occurrence) : Prop where
  words : ∀ occurrence ∈ all, occurrence.Of command
  /-- Only an argument that gathers its values is given more than once. -/
  once : ∀ occurrence ∈ all, occurrence.argument.action = .append ∨
    (all.filter (·.id = occurrence.id)).length ≤ 1
  apart : ∀ occurrence ∈ all, occurrence.id ∉ command.groups.map (·.id)
  compatible : ∀ occurrence ∈ all, ∀ group ∈ command.groupsOf occurrence.id,
    ∀ other ∈ group.members, other ≠ occurrence.id → other ∉ all.map (·.id)
  complete : ∀ argument ∈ command.arguments, argument.required = true →
    argument.id ∈ all.map (·.id)

theorem not_isPositional_of_byLong? {name : String} {argument : Argument}
    (found : command.byLong? name = some argument) : argument.isPositional = false := by
  have long : argument.long = some name := by simpa using List.find?_some found
  simp [Argument.isPositional, long]

theorem placed_of_fresh {argument : Argument} (only : command.positionals = [argument])
    (before : ∀ occurrence ∈ done, occurrence.Of command)
    (fresh : argument.id ∉ done.map (·.id)) : (Progress.after command done).placed = 0 := by
  refine List.countP_eq_zero.2 fun occurrence member positional => ?_
  cases before occurrence member with
  | attached found => exact absurd positional (by simp [not_isPositional_of_byLong? found])
  | bare _ found => exact absurd positional (by simp [not_isPositional_of_byLong? found])
  | placed alone =>
    cases only.symm.trans alone
    exact fresh (List.mem_map.2 ⟨_, member, rfl⟩)

theorem step_after (flat : command.subcommands = [])
    (before : ∀ occurrence ∈ done, occurrence.Of command) (word : next.Of command)
    (apart : next.id ∉ command.groups.map (·.id))
    (free : next.argument.action = .append ∨ next.id ∉ done.map (·.id)) :
    command.step next.word (Progress.after command done) =
      .ok (.proceed (Progress.after command (done ++ [next]))) := by
  have ready : (Progress.after command done).Ready := Progress.after_ready
  have unused := free.imp_right (Progress.isGiven_after_eq_false apart).2
  rw [step_of_ready flat ready, Progress.after_concat]
  cases word with
  | @attached name value argument values found plain takes brings =>
    have spelled : ("--" ++ name ++ "=" ++ value).toList =
        '-' :: '-' :: (name.toList ++ '=' :: value.toList) := by simp
    rw [takeWord_of_long ready (by simp) spelled, takeLong_attached found plain ready takes,
      take_of_brings brings unused]
    simp [not_isPositional_of_byLong? found, Occurrence.id, Progress.record]
  | @bare name argument values full found plain bare brings =>
    have spelled : ("--" ++ name).toList = '-' :: '-' :: name.toList := by simp
    have long : name.toList ≠ [] := by simpa using full
    rw [takeWord_of_long ready long spelled, takeLong_bare found plain ready bare,
      take_of_brings brings unused]
    simp [not_isPositional_of_byLong? found, Occurrence.id]
    rfl
  | @placed word argument values only once plain brings =>
    -- No other argument has a place, so the first word in a place is its own.
    have fresh := free.resolve_left (by simp [once])
    have positional : argument.isPositional = true := by
      have member : argument ∈ command.positionals := by simp [only]
      exact (List.mem_filter.1 member).2
    have first := placed_of_fresh only before fresh
    simp [takeWord_of_place ready plain, takePositional, first, only, positional,
      settleAndTake_of_ready ready, take_of_brings brings unused, Occurrence.id, Progress.record]

theorem parseFrom_after (flat : command.subcommands = []) (permits : command.Permits all)
    {rest : List Occurrence} (whole : done ++ rest = all) :
    parseFrom (rest.map (·.word)) command (Progress.after command done) =
      command.close none (Progress.after command all) := by
  induction rest generalizing done with
  | nil => rw [← whole, List.append_nil, List.map_nil, parseFrom]
  | cons next rest ih =>
    have member : next ∈ all := by simp [← whole]
    have before : ∀ occurrence ∈ done, occurrence.Of command := fun occurrence inDone =>
      permits.words occurrence (whole ▸ List.mem_append_left _ inDone)
    -- An earlier occurrence of the argument would be a second one on the whole line.
    have free : next.argument.action = .append ∨ next.id ∉ done.map (·.id) := by
      refine (permits.once next member).imp_right fun once again => ?_
      obtain ⟨other, inDone, same⟩ := List.mem_map.1 again
      have earlier : 0 < (done.filter (·.id = next.id)).length :=
        List.length_pos_of_mem (List.mem_filter.2 ⟨inDone, decide_eq_true same⟩)
      simp [← whole, List.filter_append] at once
      omega
    rw [List.map_cons, parseFrom,
      step_after flat before (permits.words next member) (permits.apart next member) free]
    exact ih (by simp [whole])

theorem conflicting?_after (permits : command.Permits all) :
    command.conflicting? (Progress.after command all).values = none := by
  refine List.findSome?_eq_none_iff.2 fun entry member => Option.filter_eq_none_iff.2 ?_
  intro argument found conflicts
  have named : argument.id = entry.1 := by simpa using List.find?_some found
  obtain ⟨occurrence, inAll, same⟩ :=
    List.mem_map.1 (Progress.mem_keys_after.1 (List.mem_map_of_mem member))
  obtain ⟨group, groupOf, one⟩ := List.any_eq_true.1 conflicts
  obtain ⟨other, inGroup, given⟩ := List.any_eq_true.1 one
  rw [Bool.and_eq_true, decide_eq_true_iff, List.contains_iff_mem] at given
  rw [named, ← same] at groupOf given
  exact permits.compatible occurrence inAll group groupOf other inGroup given.1
    (Progress.mem_keys_after.1 given.2)

theorem missing?_after (permits : command.Permits all) :
    command.missing? (Progress.after command all).values = none := by
  refine List.find?_eq_none.2 fun argument member missing => ?_
  rw [Bool.and_eq_true, Bool.not_eq_true', ← Bool.not_eq_true, List.contains_iff_mem] at missing
  exact missing.2 (Progress.mem_keys_after.2 (permits.complete argument member missing.1))

theorem parse_of_permits (flat : command.subcommands = [])
    (lenient : command.helpWhenBare = false ∧ command.subcommandRequired = false)
    (permits : command.Permits all) :
    command.parse (all.map (·.word)) =
      .ok (.mk (Progress.gathered (all.map (·.entry))) none) := by
  have run : command.parse (all.map (·.word)) =
      command.close none (Progress.after command all) :=
    parseFrom_after flat permits (List.nil_append all)
  rw [run, close, settle_of_ready Progress.after_ready]
  simp [lenient, conflicting?_after permits, missing?_after permits]
  rfl

theorem held_of_filter {id : String} {chosen : List Occurrence}
    (filtered : all.filter (·.id = id) = chosen) :
    Progress.held id (Progress.gathered (all.map (·.entry))) =
      if chosen = [] then none else some (chosen.flatMap (·.values)) := by
  have keys : id ∈ (all.map (·.entry)).map (·.1) ↔ chosen ≠ [] := by
    simp [← filtered, List.filter_eq_nil_iff, Occurrence.entry]
  have entries : (all.map (·.entry)).filter (·.1 = id) = chosen.map (·.entry) := by
    rw [List.filter_map, ← filtered]
    rfl
  rw [Progress.held_gathered, entries, List.flatMap_map]
  simp only [keys, ite_not]
  rfl

end Command

end SignalExchange
