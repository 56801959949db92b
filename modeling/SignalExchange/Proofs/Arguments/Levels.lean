import SignalExchange.Proofs.Arguments.Parse

/-! The levels of a command line.

The words of a command go on to the end of the line, or to the name of a subcommand, which takes all
the words behind its name. What is matched is kept apart level by level.
-/

set_option autoImplicit false

namespace SignalExchange

namespace Command

/-- The words bring the progress of one command from one point to another. -/
inductive Proceeds (command : Command) : List String → Progress → Progress → Prop where
  | done {progress : Progress} : Proceeds command [] progress progress
  | step {word : String} {rest : List String} {progress middle last : Progress}
      (first : command.step word progress = .ok (.proceed middle))
      (others : Proceeds command rest middle last) :
      Proceeds command (word :: rest) progress last

/-- What the words of a command and of the subcommands under it are matched to. -/
inductive Reads : Command → List String → Matches → Prop where
  | ends {command : Command} {own : List String} {last : Progress} {found : Matches}
      (proceeds : command.Proceeds own .start last)
      (closed : command.close none last = .ok found) : Reads command own found
  | enters {command sub : Command} {own rest : List String} {last : Progress}
      {inner found : Matches} (proceeds : command.Proceeds own .start last)
      (leading : last.trailing = false) (free : last.gathering? = none)
      (named : command.subcommand? sub.name = some sub)
      (deeper : Reads (sub.inheriting command.globals) rest inner)
      (closed : command.close (some (sub.name, inner)) last = .ok found) :
      Reads command (own ++ sub.name :: rest) found

variable {command : Command} {words : List String} {progress last : Progress} {found : Matches}

theorem subcommand?_name {word : String} {sub : Command}
    (named : command.subcommand? word = some sub) : sub.name = word := by
  simpa using List.find?_some named

theorem step_eq_enter {word : String} {sub : Command}
    (enters : command.step word progress = .ok (.enter sub)) :
    progress.trailing = false ∧ progress.gathering? = none ∧
      command.subcommand? word = some sub := by
  unfold step at enters
  split at enters
  · obtain ⟨after, -, same⟩ := Except.map_eq_ok.1 enters
    cases same
  next leading =>
    split at enters
    next free named =>
      cases enters
      exact ⟨by simpa using leading, free, named⟩
    · split at enters
      · cases enters
      · obtain ⟨after, -, same⟩ := Except.map_eq_ok.1 enters
        cases same

theorem exists_proceeds_of_parseFrom (parsed : parseFrom words command progress = .ok found) :
    (∃ last, command.Proceeds words progress last ∧ command.close none last = .ok found) ∨
    ∃ own rest last sub inner, words = own ++ sub.name :: rest ∧
      command.Proceeds own progress last ∧ last.trailing = false ∧ last.gathering? = none ∧
      command.subcommand? sub.name = some sub ∧
      (sub.inheriting command.globals).parse rest = .ok inner ∧
      command.close (some (sub.name, inner)) last = .ok found := by
  induction words generalizing progress with
  | nil => exact .inl ⟨progress, .done, parsed⟩
  | cons word rest ih =>
    rw [parseFrom] at parsed
    obtain ⟨what, stepped, parsed⟩ := Except.bind_eq_ok.1 parsed
    cases what with
    | explain => cases parsed
    | proceed middle =>
      rcases ih parsed with ⟨last, proceeds, closed⟩ |
        ⟨own, others, last, sub, inner, rfl, proceeds, closed⟩
      · exact .inl ⟨last, .step stepped proceeds, closed⟩
      · exact .inr ⟨word :: own, others, last, sub, inner, rfl, .step stepped proceeds, closed⟩
    | enter sub =>
      obtain ⟨inner, deeper, closed⟩ := Except.bind_eq_ok.1 parsed
      obtain ⟨leading, free, named⟩ := step_eq_enter stepped
      cases subcommand?_name named
      exact .inr ⟨[], rest, progress, sub, inner, rfl, .done, leading, free, named, deeper, closed⟩

theorem closed_of_parse (flat : command.subcommands = [])
    (parsed : command.parse words = .ok found) :
    ∃ last, command.Proceeds words .start last ∧ command.close none last = .ok found := by
  rcases exists_proceeds_of_parseFrom parsed with closed | ⟨_, _, _, sub, _, _, _, _, _, named, _⟩
  · exact closed
  · simp [subcommand?, flat] at named

theorem reads_of_parse (parsed : command.parse words = .ok found) :
    command.Reads words found := by
  -- Each subcommand has fewer words than the command above it.
  induction size : words.length using Nat.strongRecOn generalizing command words found with
  | ind length ih =>
    subst size
    rcases exists_proceeds_of_parseFrom parsed with ⟨last, proceeds, closed⟩ |
      ⟨own, rest, last, sub, inner, rfl, proceeds, leading, free, named, deeper, closed⟩
    · exact .ends proceeds closed
    · have fewer : rest.length < (own ++ sub.name :: rest).length := by
        rw [List.length_append, List.length_cons]
        omega
      exact .enters proceeds leading free named (ih _ fewer deeper rfl) closed

theorem close_eq_ok {sub : Option (String × Matches)}
    (closed : command.close sub progress = .ok found) :
    ∃ last, command.settle progress = .ok last ∧ command.conflicting? last.values = none ∧
      found = .mk last.values sub := by
  unfold close at closed
  obtain ⟨last, settles, closed⟩ := Except.bind_eq_ok.1 closed
  refine ⟨last, settles, ?_⟩
  cases conflicts : command.conflicting? last.values with
  | some argument =>
    simp only [conflicts] at closed
    repeat' split at closed
    all_goals cases closed
  | none =>
    simp only [conflicts] at closed
    repeat' split at closed
    all_goals cases closed
    exact ⟨rfl, rfl⟩

theorem Proceeds.moves (proceeds : command.Proceeds words progress last) :
    command.Moves words progress last := by
  have within {some : List String} (inWords : ∀ word ∈ some, word ∈ words)
      {progress last : Progress} (proceeds : command.Proceeds some progress last) :
      command.Moves words progress last := by
    induction proceeds with
    | done => exact .refl
    | step first _ ih =>
      rw [List.forall_mem_cons] at inWords
      exact (moves_of_step inWords.1 first).trans (ih inWords.2)
  exact within (fun _ member => member) proceeds

theorem Proceeds.sound (proceeds : command.Proceeds words .start last) : command.Sound last :=
  proceeds.moves.preserves (fun _ _ move sound => sound.move move) start_sound

end Command

end SignalExchange
