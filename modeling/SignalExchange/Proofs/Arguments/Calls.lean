import SignalExchange.Proofs.Arguments.Occurrences

/-! Where the values of a command line come from.

Every value was brought by an occurrence of an argument that one of the words calls. So the values
under a name are those of the occurrences of its arguments, one after another.
-/

set_option autoImplicit false

namespace SignalExchange

/-- One of the words calls the argument, which brings the values. -/
structure Occurrence.Among (command : Command) (words : List String) (occurrence : Occurrence) :
    Prop where
  given : occurrence.word ∈ words
  calls : command.Calls occurrence.word occurrence.argument
  brings : ∃ taken, occurrence.argument.Brings taken occurrence.values

namespace Command

/-- All values were brought by occurrences among the words, and values are gathered for an argument
that one of the words calls. -/
structure Traced (command : Command) (words : List String) (progress : Progress) : Prop where
  values : ∃ done : List Occurrence, (∀ occurrence ∈ done, occurrence.Among command words) ∧
    progress.values = Progress.gathered (done.map (·.entry))
  pending : ∀ argument taken, progress.pending = some (argument, taken) →
    ∃ word ∈ words, command.Calls word argument

variable {command : Command} {words taken : List String} {progress next : Progress}
  {argument : Argument} {word : String}

theorem start_traced : command.Traced words .start := by
  refine ⟨⟨[], ?_, rfl⟩, fun argument taken pending => ?_⟩
  · simp
  · cases pending

theorem Traced.cleared (traced : command.Traced words progress) :
    command.Traced words { progress with pending := none } := by
  refine ⟨traced.values, fun argument taken pending => ?_⟩
  cases pending

theorem Traced.record (traced : command.Traced words progress) (given : word ∈ words)
    (calls : command.Calls word argument) {values : List Json}
    (brings : argument.Brings taken values) :
    command.Traced words (progress.record command argument.id values) := by
  obtain ⟨done, among, same⟩ := traced.values
  refine ⟨⟨done ++ [⟨word, argument, values⟩], fun occurrence member => ?_, ?_⟩, traced.pending⟩
  · rcases List.mem_append.1 member with before | last
    · exact among occurrence before
    · cases List.mem_singleton.1 last
      exact ⟨given, calls, taken, brings⟩
  · rw [List.map_append, List.map_singleton, Progress.gathered_concat, ← same]
    rfl

theorem Traced.move (traced : command.Traced words progress)
    (move : command.Move words progress next) : command.Traced words next := by
  cases move with
  | settle pending done =>
    obtain ⟨values, brings, rfl⟩ := brings_of_take done
    obtain ⟨word, given, calls⟩ := traced.pending _ _ pending
    exact traced.cleared.record given calls brings
  | take _ given calls done =>
    obtain ⟨values, brings, rfl⟩ := brings_of_take done
    exact traced.record given calls brings
  | await _ given calls =>
    refine ⟨traced.values, fun other more pending => ?_⟩
    cases pending
    exact ⟨_, given, calls⟩
  | gather before word =>
    refine ⟨traced.values, fun other more pending => ?_⟩
    cases pending
    exact traced.pending _ _ before
  | trail => exact ⟨traced.values, traced.pending⟩
  | place => exact ⟨traced.values, traced.pending⟩

theorem occurrences_of_parse {found : Matches} (parsed : command.parse words = .ok found) :
    ∃ all : List Occurrence, (∀ occurrence ∈ all, occurrence.Among command words) ∧
      found.values = Progress.gathered (all.map (·.entry)) := by
  obtain ⟨last, moves, -, same⟩ := moves_of_parse parsed
  rw [same]
  exact (moves.preserves (fun _ _ move traced => traced.move move) start_traced).values

theorem all?_of_parse {found : Matches} (parsed : command.parse words = .ok found) (id : String) :
    ∃ own : List Occurrence,
      (∀ occurrence ∈ own, occurrence.Among command words ∧ occurrence.id = id) ∧
      found.all? id = if own = [] then none else some (own.flatMap (·.values)) := by
  obtain ⟨all, among, same⟩ := occurrences_of_parse parsed
  refine ⟨all.filter (·.id = id), fun occurrence member => ?_, ?_⟩
  · obtain ⟨inAll, named⟩ := List.mem_filter.1 member
    exact ⟨among occurrence inAll, of_decide_eq_true named⟩
  · rw [Matches.all?, same]
    exact held_of_filter rfl

end Command

end SignalExchange
