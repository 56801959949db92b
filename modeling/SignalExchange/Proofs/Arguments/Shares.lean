import SignalExchange.Proofs.Arguments.Accounts

/-! How the occurrences of an argument are shared out among the levels of a command line.

The words of each level stand together, so what the line gives to the argument is what it gives at
the first level, then what it gives at the next one, and so on.
-/

set_option autoImplicit false

namespace SignalExchange

namespace Matches

/-- The names of the subcommands that were entered, the outermost first. -/
def path : Matches → List String
  | mk _ none => []
  | mk _ (some (name, inner)) => name :: path inner

/-- What the last of the subcommands was matched to. -/
def innermost : Matches → Matches
  | mk values none => mk values none
  | mk _ (some (_, inner)) => innermost inner

/-- The values of an argument at each level that was given it, the outermost first. -/
def levels (id : String) : Matches → List (List Json)
  | mk values none => (Progress.held id values).toList
  | mk values (some (_, inner)) => (Progress.held id values).toList ++ levels id inner

theorem global?_eq (id : String) : ∀ found : Matches, found.global? id = (found.levels id).getLast?
  | mk values none => by
    rw [global?, levels, Progress.held]
    cases (values.find? fun entry => entry.1 = id).map (·.2) <;> rfl
  | mk values (some (name, inner)) => by
    rw [global?, levels, List.getLast?_append, global?_eq id inner, Progress.held]
    cases (levels id inner).getLast? with
    | some last => rfl
    | none => cases (values.find? fun entry => entry.1 = id).map (·.2) <;> rfl

end Matches

namespace Command

/-- The command that names of subcommands lead to, with the arguments that it inherits. -/
def descend : List String → Command → Option Command
  | [], command => some command
  | name :: path, command =>
    (command.subcommand? name).bind fun sub => descend path (sub.inheriting command.globals)

/-- The command reserves the name of the argument, and its subcommands have names that cannot be
taken for that of any argument. -/
structure Parts (command : Command) (argument : Argument) : Prop where
  reserves : command.Reserves argument
  plain : ∀ sub ∈ command.subcommands, isPlain sub.name = true

variable {command : Command} {words : List String} {found : Matches}

theorem closed_of_reads (reads : command.Reads words found) :
    ∃ inner own last, descend found.path command = some inner ∧
      inner.Proceeds own .start last ∧ inner.close none last = .ok found.innermost := by
  induction reads with
  | ends proceeds closed =>
    obtain ⟨_, -, -, rfl⟩ := close_eq_ok closed
    exact ⟨_, _, _, rfl, proceeds, closed⟩
  | enters _ _ _ named _ closed ih =>
    obtain ⟨inner, own, last, leads, proceeds, closedInner⟩ := ih
    obtain ⟨_, -, -, rfl⟩ := close_eq_ok closed
    refine ⟨inner, own, last, ?_, proceeds, closedInner⟩
    rw [Matches.path, descend, named]
    exact leads

end Command

namespace Argument

open Command

theorem eq_nil_of_lacks {argument : Argument} {command : Command} {words : List String}
    {last : Progress} {sub : Option (String × Matches)} {found : Matches}
    (reserves : command.Reserves argument) (proceeds : command.Proceeds words .start last)
    (closed : command.close sub last = .ok found) (lacks : argument ∉ command.allArguments)
    {occurrences : List (List String)} (matched : argument.Matched occurrences found.values) :
    occurrences = [] := by
  obtain ⟨⟨brought, -, held⟩, -⟩ := matched
  by_contra some
  rw [if_neg some] at held
  obtain ⟨other, member, same⟩ := (holds_of_close proceeds closed held).exists_argument
  exact lacks (reserves.alone other member (.inl same) ▸ member)

/-- The occurrences are those of the first level, followed by those of the next ones. Each level
matches its own, and has none unless the argument is one of the command. -/
inductive Shared (argument : Argument) : Command → Matches → List (List String) → Prop where
  | ends {command : Command} {values : List (String × List Json)} {here : List (List String)}
      (matched : argument.Matched here values)
      (lacks : argument ∉ command.allArguments → here = []) :
      Shared argument command (.mk values none) here
  | enters {command sub : Command} {values : List (String × List Json)} {inner : Matches}
      {here rest : List (List String)} (matched : argument.Matched here values)
      (lacks : argument ∉ command.allArguments → here = [])
      (named : command.subcommand? sub.name = some sub)
      (deeper : Shared argument (sub.inheriting command.globals) inner rest) :
      Shared argument command (.mk values (some (sub.name, inner))) (here ++ rest)

variable {argument : Argument} {command : Command} {words : List String} {found : Matches}

theorem shared_of_reads (reads : command.Reads words found)
    (parts : ∀ before inner, before <+: found.path → descend before command = some inner →
      inner.Parts argument) : argument.Shared command found (argument.given words) := by
  induction reads with
  | ends proceeds closed =>
    have here := parts [] _ List.nil_prefix rfl
    have matched := matched_of_close here.reserves proceeds closed
    have lacks := fun lacks => eq_nil_of_lacks here.reserves proceeds closed lacks matched
    obtain ⟨_, -, -, rfl⟩ := close_eq_ok closed
    exact .ends matched lacks
  | @enters command sub own rest last inner found proceeds leading free named deeper closed ih =>
    have here := parts [] _ List.nil_prefix rfl
    have unmarked := unmarked_of_plain (here.plain sub (List.mem_of_find?_eq_some named))
    obtain ⟨-, noEnd, unnamed⟩ := @plain_of_unmarked argument _ unmarked
    obtain ⟨own, matched, same⟩ :=
      matched_of_enter here.reserves proceeds closed leading free noEnd unnamed rest
    have lacks := fun lacks => eq_nil_of_lacks here.reserves proceeds closed lacks matched
    obtain ⟨_, -, -, rfl⟩ := close_eq_ok closed
    rw [same]
    refine .enters matched lacks named (ih fun before deep within leads => ?_)
    refine parts (sub.name :: before) deep ?_ ?_
    · rw [Matches.path]
      exact List.cons_prefix_cons.2 ⟨rfl, within⟩
    · rw [descend, named]
      exact leads

theorem Shared.levels {occurrences : List (List String)} (single : argument.action ≠ .append)
    (shared : argument.Shared command found occurrences) :
    List.Forall₂ argument.Brings occurrences (found.levels argument.id) := by
  have one {here : List (List String)} {values : List (String × List Json)}
      (matched : argument.Matched here values) :
      List.Forall₂ argument.Brings here (Progress.held argument.id values).toList := by
    obtain ⟨⟨brought, brings, held⟩, once⟩ := matched
    cases brings with
    | nil => simp [held]
    | cons first others =>
      -- The one occurrence has all the values.
      have few := once.resolve_left single
      cases List.eq_nil_of_length_eq_zero (Nat.le_zero.1 (Nat.le_of_succ_le_succ few))
      cases others
      simpa [held] using first
  induction shared with
  | ends matched => exact one matched
  | enters matched _ _ _ ih => exact List.rel_append (one matched) ih

theorem Shared.innermost {occurrences : List (List String)}
    (shared : argument.Shared command found occurrences)
    (lacks : ∀ before inner, before <+: found.path → before ≠ found.path →
      descend before command = some inner → argument ∉ inner.allArguments) :
    argument.Matched occurrences found.innermost.values := by
  induction shared with
  | ends matched => exact matched
  | @enters command sub values inner here rest matched none named deeper ih =>
    have noneHere := none (lacks [] _ List.nil_prefix nofun rfl)
    rw [noneHere, List.nil_append]
    refine ih fun before deep within proper leads => ?_
    refine lacks (sub.name :: before) deep ?_ ?_ ?_
    · rw [Matches.path]
      exact List.cons_prefix_cons.2 ⟨rfl, within⟩
    · rw [Matches.path]
      exact fun same => proper (List.cons.inj same).2
    · rw [descend, named]
      exact leads

end Argument

theorem exists_map_of_forall₂ {α β γ : Type} {related : α → β → Prop} {f : γ → α} {g : γ → β}
    (each : ∀ first second, related first second → ∃ source, first = f source ∧ second = g source)
    {firsts : List α} {seconds : List β} (all : List.Forall₂ related firsts seconds) :
    ∃ sources : List γ, firsts = sources.map f ∧ seconds = sources.map g := by
  induction all with
  | nil => exact ⟨[], rfl, rfl⟩
  | cons first _ ih =>
    obtain ⟨source, rfl, rfl⟩ := each _ _ first
    obtain ⟨others, rfl, rfl⟩ := ih
    exact ⟨source :: others, rfl, rfl⟩

end SignalExchange
