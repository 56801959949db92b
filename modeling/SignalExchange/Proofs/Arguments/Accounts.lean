import Mathlib.Data.List.Forall2
import SignalExchange.Proofs.Arguments.Given
import SignalExchange.Proofs.Arguments.Levels

/-! What is matched to an argument that is called by its long name alone.

Each word that is matched takes the occurrences that the words before it give to those that the
words with it give. So in the end the values of the argument are read from its occurrences, and from
nothing else.
-/

set_option autoImplicit false

namespace SignalExchange

namespace Argument

/-- The values that are matched to the argument are those that its occurrences bring. -/
structure Matched (argument : Argument) (occurrences : List (List String))
    (values : List (String × List Json)) : Prop where
  brought : ∃ brought, List.Forall₂ argument.Brings occurrences brought ∧
    Progress.held argument.id values = if occurrences = [] then none else some brought.flatten
  once : argument.action = .append ∨ occurrences.length ≤ 1

end Argument

namespace Command

/-- The argument is called by its long name alone, and no other argument of the command has that
name or its identifier. -/
structure Reserves (command : Command) (argument : Argument) : Prop where
  long : argument.long ≠ none
  short : argument.short = none
  alone : ∀ other ∈ command.allArguments,
    other.id = argument.id ∨ other.long = argument.long → other = argument

variable {command : Command} {argument other : Argument}

namespace Reserves

variable (reserves : command.Reserves argument)

include reserves

theorem id_ne (member : other ∈ command.allArguments) (differs : other ≠ argument) :
    other.id ≠ argument.id := fun same => differs (reserves.alone other member (.inl same))

theorem byLong?_own {name : String} (named : argument.long = some name)
    (found : command.byLong? name = some other) : other = argument := by
  have long : other.long = some name := by simpa using List.find?_some found
  exact reserves.alone other (List.mem_of_find?_eq_some found) (.inr (long.trans named.symm))

theorem byLong?_other {name : String} (apart : argument.long ≠ some name)
    (found : command.byLong? name = some other) : other.id ≠ argument.id := by
  have long : other.long = some name := by simpa using List.find?_some found
  refine reserves.id_ne (List.mem_of_find?_eq_some found) ?_
  rintro rfl
  exact apart long

theorem byShort?_other {short : Char} (found : command.byShort? short = some other) :
    other.id ≠ argument.id := by
  have given : other.short = some short := by simpa using List.find?_some found
  refine reserves.id_ne (List.mem_of_find?_eq_some found) ?_
  rintro rfl
  rw [reserves.short] at given
  cases given

theorem positional_other (member : other ∈ command.positionals) : other.id ≠ argument.id := by
  obtain ⟨inArguments, positional⟩ := List.mem_filter.1 member
  refine reserves.id_ne (List.mem_append_left _ inArguments) ?_
  rintro rfl
  simp only [Argument.isPositional, Bool.and_eq_true, Option.isNone_iff_eq_none] at positional
  exact reserves.long positional.1

end Reserves

theorem holds_of_close {words : List String} {last : Progress} {sub : Option (String × Matches)}
    {found : Matches} (proceeds : command.Proceeds words .start last)
    (closed : command.close sub last = .ok found) {id : String} {values : List Json}
    (all : found.all? id = some values) : command.Holds id values := by
  obtain ⟨final, settles, -, rfl⟩ := close_eq_ok closed
  have settled : command.Moves words last final := (moves_of_settle settles).1
  have sound := settled.preserves (fun _ _ move sound => sound.move move) proceeds.sound
  exact holds_of_found sound.values all

theorem held_of_group {sub : Option (String × Matches)} {last : Progress} {found : Matches}
    (closed : command.close sub last = .ok found)
    (known : command.byId? argument.id = some argument) {group : Group}
    (among : group ∈ command.groupsOf argument.id) {id : String} (member : id ∈ group.members)
    (differs : id ≠ argument.id) :
    Progress.held argument.id found.values = none ∨ Progress.held id found.values = none := by
  obtain ⟨final, -, apart, rfl⟩ := close_eq_ok closed
  refine or_iff_not_imp_left.2 fun given => Progress.held_eq_none_iff.2 fun other => ?_
  rw [Progress.held_eq_none_iff, not_not] at given
  obtain ⟨entry, inValues, same⟩ := List.mem_map.1 given
  have free := List.findSome?_eq_none_iff.1 apart entry inValues
  rw [same, known, Option.filter_eq_none_iff] at free
  refine free argument rfl (List.any_eq_true.2 ⟨group, among, List.any_eq_true.2 ⟨id, member, ?_⟩⟩)
  rw [Bool.and_eq_true, decide_eq_true_eq, List.contains_iff_mem]
  exact ⟨differs, other⟩

end Command

namespace Argument

open Command

variable {command : Command} {argument other : Argument} {occurrences : List (List String)}
  {progress next : Progress} {taken : List String}

/-! Occurrences one by one -/

theorem matched_nil (argument : Argument) : argument.Matched [] [] :=
  ⟨⟨[], .nil, rfl⟩, .inr (Nat.zero_le 1)⟩

theorem held_of_take_other (differs : other.id ≠ argument.id)
    (done : command.take other taken progress = .ok next) :
    Progress.held argument.id next.values = Progress.held argument.id progress.values := by
  obtain ⟨values, -, rfl⟩ := brings_of_take done
  exact (Progress.held_append _ _ _ _).trans (if_neg differs.symm)

theorem matched_of_take_other (done : command.take other taken progress = .ok next)
    (differs : other.id ≠ argument.id) (matched : argument.Matched occurrences progress.values) :
    argument.Matched occurrences next.values := by
  obtain ⟨⟨brought, brings, held⟩, once⟩ := matched
  exact ⟨⟨brought, brings, (held_of_take_other differs done).trans held⟩, once⟩

theorem held_eq_none_of_take (done : command.take argument taken progress = .ok next)
    (single : argument.action ≠ .append) : Progress.held argument.id progress.values = none := by
  have fresh : progress.isGiven argument.id = false := by
    unfold take at done
    obtain ⟨_, -, done⟩ := Except.bind_eq_ok.1 done
    by_contra given
    rw [Bool.not_eq_false] at given
    cases action : argument.action with
    | append => exact single action
    | showHelp | showVersion | setTrue | set =>
      simp only [action, given] at done
      cases done
  rw [Progress.isGiven, Bool.or_eq_false_iff, decide_eq_false_iff_not] at fresh
  exact Progress.held_eq_none_iff.2 fresh.1

theorem matched_of_take_own (done : command.take argument taken progress = .ok next)
    (matched : argument.Matched occurrences progress.values) :
    argument.Matched (occurrences ++ [taken]) next.values := by
  obtain ⟨⟨brought, brings, held⟩, once⟩ := matched
  constructor
  case brought =>
    obtain ⟨values, brings', rfl⟩ := brings_of_take done
    refine ⟨brought ++ [values], List.rel_append brings (.cons brings' .nil), ?_⟩
    rw [if_neg (by simp)]
    refine (Progress.held_append _ _ _ _).trans ?_
    rw [if_pos rfl, held]
    cases brings with
    | nil => simp
    | cons => simp
  case once =>
    refine or_iff_not_imp_left.2 fun single => ?_
    have none := held_eq_none_of_take done single
    rw [held] at none
    have first : occurrences = [] := by
      by_contra more
      rw [if_neg more] at none
      cases none
    simp [first]

/-! Words one by one -/

/-- The occurrence that is still gathering its words, with those that will join them. -/
def continued (argument : Argument) (progress : Progress) (words : List String) :
    List (List String) :=
  match progress.pending with
  | some (pending, taken) =>
    if pending = argument then
      [taken ++ (words.takeWhile isPlain).take (argument.greatest - taken.length)]
    else []
  | none => []

/-- What the words that follow bring to the occurrences that are settled. -/
def ahead (argument : Argument) (progress : Progress) (words : List String) :
    List (List String) :=
  if progress.trailing then argument.continued progress []
  else argument.continued progress words ++ argument.given words

/-- Nothing is gathered for the argument any more, and these are its occurrences. -/
structure Passed (argument : Argument) (occurrences : List (List String))
    (progress next : Progress) : Prop where
  matched : argument.Matched occurrences next.values
  elsewhere : ∀ taken, next.pending ≠ some (argument, taken)
  trailing : next.trailing = progress.trailing

def Known (command : Command) (progress : Progress) : Prop :=
  ∀ argument taken, progress.pending = some (argument, taken) → argument ∈ command.allArguments

theorem continued_of_pending (pending : progress.pending = some (argument, taken))
    (words : List String) : argument.continued progress words =
      [taken ++ (words.takeWhile isPlain).take (argument.greatest - taken.length)] := by
  simp [continued, pending]

theorem continued_of_elsewhere (elsewhere : ∀ taken, progress.pending ≠ some (argument, taken))
    (words : List String) : argument.continued progress words = [] := by
  unfold continued
  split
  next pending taken is =>
    refine if_neg fun same => ?_
    subst same
    exact elsewhere taken is
  next => rfl

theorem trailing_of_take (done : command.take other taken progress = .ok next) :
    next.trailing = progress.trailing := by
  obtain ⟨values, -, rfl⟩ := brings_of_take done
  rfl

section

variable (reserves : command.Reserves argument) (known : Known command progress)
  (matched : argument.Matched occurrences progress.values)

include reserves known matched

theorem passed_of_settle (done : command.settle progress = .ok next) :
    argument.Passed (occurrences ++ argument.continued progress []) progress next ∧
      next.pending = none := by
  unfold settle at done
  split at done
  next settled =>
    cases done
    have elsewhere : ∀ taken, progress.pending ≠ some (argument, taken) := by simp [settled]
    rw [continued_of_elsewhere elsewhere, List.append_nil]
    exact ⟨⟨matched, elsewhere, rfl⟩, settled⟩
  next gathering taken pending =>
    have after : next.pending = none := pending_of_take done
    have same := trailing_of_take done
    have elsewhere : ∀ taken, next.pending ≠ some (argument, taken) := by simp [after]
    refine ⟨⟨?_, elsewhere, same⟩, after⟩
    by_cases own : gathering = argument
    · subst own
      rw [continued_of_pending pending]
      simpa using matched_of_take_own done matched
    · have others : ∀ taken, progress.pending ≠ some (argument, taken) := by
        simp [pending, own]
      rw [continued_of_elsewhere others, List.append_nil]
      exact matched_of_take_other done (reserves.id_ne (known gathering taken pending) own) matched

theorem passed_of_settleAndTake_other (differs : other.id ≠ argument.id)
    (done : command.settleAndTake other taken progress = .ok next) :
    argument.Passed (occurrences ++ argument.continued progress []) progress next ∧
      next.pending = none := by
  obtain ⟨middle, settles, done⟩ := Except.bind_eq_ok.1 done
  obtain ⟨passed, settled⟩ := passed_of_settle reserves known matched settles
  have after : next.pending = none := (pending_of_take done).trans settled
  exact ⟨⟨matched_of_take_other done differs passed.matched, by simp [after],
    (trailing_of_take done).trans passed.trailing⟩, after⟩

theorem passed_of_settleAndTake_own
    (done : command.settleAndTake argument taken progress = .ok next) :
    argument.Passed (occurrences ++ argument.continued progress [] ++ [taken]) progress next := by
  obtain ⟨middle, settles, done⟩ := Except.bind_eq_ok.1 done
  obtain ⟨passed, settled⟩ := passed_of_settle reserves known matched settles
  have after : next.pending = none := (pending_of_take done).trans settled
  exact ⟨matched_of_take_own done passed.matched, by simp [after],
    (trailing_of_take done).trans passed.trailing⟩

theorem passed_of_begin_other (differs : other.id ≠ argument.id) {attached : Option String}
    (done : command.begin other attached progress = .ok next) :
    argument.Passed (occurrences ++ argument.continued progress []) progress next := by
  unfold begin at done
  split at done
  · exact (passed_of_settleAndTake_other reserves known matched differs done).1
  · split at done
    · split at done
      · exact (passed_of_settleAndTake_other reserves known matched differs done).1
      · cases done
    · obtain ⟨middle, settles, rfl⟩ := Except.map_eq_ok.1 done
      obtain ⟨passed, -⟩ := passed_of_settle reserves known matched settles
      refine ⟨passed.matched, fun taken same => ?_, passed.trailing⟩
      cases same
      exact differs rfl

theorem passed_of_takeShorts {cluster : List Char}
    (some : cluster ≠ [] ∨ ∀ taken, progress.pending ≠ some (argument, taken))
    (done : command.takeShorts cluster progress = .ok next) :
    argument.Passed (occurrences ++ argument.continued progress []) progress next := by
  induction cluster generalizing progress occurrences with
  | nil =>
    cases done
    have elsewhere := some.resolve_left fun none => none rfl
    rw [continued_of_elsewhere elsewhere, List.append_nil]
    exact ⟨matched, elsewhere, rfl⟩
  | cons short rest ih =>
    rw [takeShorts] at done
    split at done
    · cases done
    next called found =>
      have differs := reserves.byShort?_other found
      split at done
      · exact passed_of_begin_other reserves known matched differs done
      · obtain ⟨middle, taken, done⟩ := Except.bind_eq_ok.1 done
        obtain ⟨passed, settled⟩ :=
          passed_of_settleAndTake_other reserves known matched differs taken
        have rest := ih (by simp [Known, settled]) passed.matched (.inr passed.elsewhere) done
        rw [continued_of_elsewhere passed.elsewhere, List.append_nil] at rest
        exact ⟨rest.matched, rest.elsewhere, rest.trailing.trans passed.trailing⟩

theorem passed_of_takePositional {word : String}
    (done : command.takePositional word progress = .ok next) :
    argument.Passed (occurrences ++ argument.continued progress []) progress next := by
  unfold takePositional at done
  split at done
  · split at done <;> cases done
  next called found =>
    obtain ⟨middle, taken, same⟩ := Except.bind_eq_ok.1 done
    cases same
    have differs := reserves.positional_other (List.mem_of_getElem? found)
    obtain ⟨passed, settled⟩ := passed_of_settleAndTake_other reserves known matched differs taken
    exact ⟨passed.matched, passed.elsewhere, passed.trailing⟩

end

/-- What the word does not settle stays ahead, whatever the words behind it are. -/
def Accounts (argument : Argument) (occurrences : List (List String)) (progress next : Progress)
    (word : String) : Prop :=
  ∀ rest, ∃ more, argument.Matched (occurrences ++ more) next.values ∧
    more ++ argument.ahead next rest = argument.ahead progress (word :: rest)

theorem continued_cons_of_not_plain {word : String} (marked : isPlain word = false)
    (rest : List String) :
    argument.continued progress (word :: rest) = argument.continued progress [] := by
  simp [continued, marked]

theorem continued_of_full (full : progress.gathering? = none) (words : List String) :
    argument.continued progress words = argument.continued progress [] := by
  unfold Progress.gathering? at full
  cases pending : progress.pending with
  | none => simp [continued, pending]
  | some gathering =>
    obtain ⟨gatherer, taken⟩ := gathering
    simp only [pending, ite_eq_right_iff, reduceCtorEq, imp_false, not_lt] at full
    by_cases own : gatherer = argument
    · subst own
      simp [continued_of_pending pending, Nat.sub_eq_zero_of_le full]
    · simp [continued, pending, own]

theorem Passed.accounts {word : String} (leading : progress.trailing = false)
    (passed : argument.Passed (occurrences ++ argument.continued progress []) progress next)
    (noEnd : word ≠ "--") (unnamed : argument.named? word = none)
    (stops : ∀ rest, argument.continued progress (word :: rest) = argument.continued progress []) :
    argument.Accounts occurrences progress next word := by
  refine fun rest => ⟨argument.continued progress [], passed.matched, ?_⟩
  have after : next.trailing = false := passed.trailing.trans leading
  simp [ahead, leading, after, continued_of_elsewhere passed.elsewhere, stops,
    given_cons_of_unnamed noEnd unnamed]

theorem Passed.accounts_own {word : String} (leading : progress.trailing = false)
    {passedTo : List String}
    (passed : argument.Passed (occurrences ++ argument.continued progress [] ++ [passedTo])
      progress next)
    (marked : isPlain word = false)
    (gives : ∀ rest, argument.given (word :: rest) = passedTo :: argument.given rest) :
    argument.Accounts occurrences progress next word := by
  refine fun rest => ⟨argument.continued progress [] ++ [passedTo], ?_, ?_⟩
  · rw [← List.append_assoc]
    exact passed.matched
  · have after : next.trailing = false := passed.trailing.trans leading
    simp [ahead, leading, after, continued_of_elsewhere passed.elsewhere,
      continued_cons_of_not_plain marked, gives]

section

variable (reserves : command.Reserves argument) (known : Known command progress)
  (matched : argument.Matched occurrences progress.values) (leading : progress.trailing = false)

include reserves known matched leading

theorem accounts_of_takeLong_own {word : String} {long : List Char} (noEnd : word ≠ "--")
    (spelled : word.toList = '-' :: '-' :: long)
    (own : argument.long = some (splitLong long).1)
    (done : command.takeLong long progress = .ok next) :
    argument.Accounts occurrences progress next word := by
  have marked : isPlain word = false := by simp [isPlain, spelled]
  have named : argument.named? word = some (splitLong long).2 := by simp [named?, spelled, own]
  simp only [takeLong] at done
  split at done
  · cases done
  next called found =>
    cases reserves.byLong?_own own found
    cases attached : (splitLong long).2 with
    | some value =>
      have gives : ∀ rest, argument.given (word :: rest) = [value] :: argument.given rest := by
        simp [given, noEnd, named, attached]
      simp only [attached] at done
      split at done
      · exact (passed_of_settleAndTake_own reserves known matched done).accounts_own leading
          marked gives
      · cases done
    | none =>
      have gives : ∀ rest, argument.given (word :: rest) =
          (rest.takeWhile isPlain).take argument.room :: argument.given rest := by
        simp [given, noEnd, named, attached]
      have gives_bare (closed : argument.room = 0) :
          ∀ rest, argument.given (word :: rest) = [] :: argument.given rest := by
        simp [gives, closed]
      simp only [attached, begin] at done
      split at done
      · split at done
        next attachedOnly =>
          have closed : argument.room = 0 := by simp [room, attachedOnly]
          split at done
          · exact (passed_of_settleAndTake_own reserves known matched done).accounts_own leading
              marked (gives_bare closed)
          · cases done
        next spaced =>
          -- The words of the occurrence are still to come.
          have open_ : argument.room = argument.greatest := by simp [room, spaced]
          obtain ⟨middle, settles, rfl⟩ := Except.map_eq_ok.1 done
          obtain ⟨passed, -⟩ := passed_of_settle reserves known matched settles
          refine fun rest => ⟨argument.continued progress [], passed.matched, ?_⟩
          have after : middle.trailing = false := passed.trailing.trans leading
          simp [ahead, leading, after, gives, open_, continued_cons_of_not_plain marked,
            continued_of_pending]
      next switch =>
        have closed : argument.room = 0 := by
          have none : argument.greatest = 0 := by simpa [takesValue] using switch
          simp [room, none]
        exact (passed_of_settleAndTake_own reserves known matched done).accounts_own leading
          marked (gives_bare closed)

theorem accounts_of_takeLong {word : String} {long : List Char} (noEnd : word ≠ "--")
    (spelled : word.toList = '-' :: '-' :: long)
    (done : command.takeLong long progress = .ok next) :
    argument.Accounts occurrences progress next word := by
  by_cases own : argument.long = some (splitLong long).1
  · exact accounts_of_takeLong_own reserves known matched leading noEnd spelled own done
  · have marked : isPlain word = false := by simp [isPlain, spelled]
    have unnamed : argument.named? word = none := by simp [named?, spelled, own]
    refine Passed.accounts leading ?_ noEnd unnamed (continued_cons_of_not_plain marked)
    unfold takeLong at done
    simp only at done
    split at done
    · cases done
    next called found =>
      have differs := reserves.byLong?_other own found
      split at done
      · exact passed_of_begin_other reserves known matched differs done
      · split at done
        · cases done
        · exact (passed_of_settleAndTake_other reserves known matched differs done).1

omit reserves known in
theorem accounts_of_gather {gatherer : Argument} {word : String}
    (gathering : progress.gathering? = some (gatherer, taken)) (plain : isPlain word = true)
    (noEnd : word ≠ "--") (unnamed : argument.named? word = none) :
    argument.Accounts occurrences progress
      { progress with pending := some (gatherer, taken ++ [word]) } word := by
  have pending := pending_of_gathering? gathering
  have room : taken.length < gatherer.greatest := by
    simp only [Progress.gathering?, pending] at gathering
    split at gathering
    next room => exact room
    next => cases gathering
  refine fun rest => ⟨[], ?_, ?_⟩
  · rw [List.append_nil]
    exact matched
  · rw [List.nil_append, ahead, ahead]
    simp only [leading, Bool.false_eq_true, if_false, given_cons_of_unnamed noEnd unnamed]
    congr 1
    by_cases own : gatherer = argument
    · subst own
      have more : gatherer.greatest - taken.length =
          (gatherer.greatest - (taken ++ [word]).length) + 1 := by
        rw [List.length_append, List.length_singleton]
        omega
      rw [continued_of_pending pending, continued_of_pending rfl, more]
      simp [plain]
    · simp [continued, pending, own]

theorem accounts_of_takeWord {word : String} (done : command.takeWord word progress = .ok next) :
    argument.Accounts occurrences progress next word := by
  unfold takeWord at done
  split at done
  next spelled =>
    cases done
    have isEnd : word = "--" := String.toList_injective spelled
    subst isEnd
    refine fun rest => ⟨[], ?_, ?_⟩
    · rw [List.append_nil]
      exact matched
    · have marked : isPlain "--" = false := by decide
      have same : argument.continued { progress with trailing := true } [] =
        argument.continued progress [] := rfl
      simp [ahead, leading, same, continued_cons_of_not_plain marked, given]
  next long some spelled =>
    have noEnd : word ≠ "--" := by
      rintro rfl
      exact some (by simpa using spelled.symm)
    exact accounts_of_takeLong reserves known matched leading noEnd spelled done
  next short rest _ single spelled =>
    have noEnd : word ≠ "--" := by
      rintro rfl
      exact single (List.cons.inj (List.cons.inj spelled).2).1.symm
    have marked : isPlain word = false := by simp [isPlain, spelled]
    have unnamed : argument.named? word = none := by
      simp only [named?, spelled]
      split
      next same => exact absurd (List.cons.inj (List.cons.inj same).2).1 single
      next => rfl
    exact (passed_of_takeShorts reserves known matched (.inl (by simp)) done).accounts leading noEnd
      unnamed (continued_cons_of_not_plain marked)
  -- Values are being gathered, and the word is one more of them.
  next gatherer taken gathering _ _ unmarked =>
    cases done
    obtain ⟨plain, noEnd, unnamed⟩ := @plain_of_unmarked argument _ unmarked
    exact accounts_of_gather matched leading gathering plain noEnd unnamed
  next full _ _ unmarked =>
    obtain ⟨-, noEnd, unnamed⟩ := @plain_of_unmarked argument _ unmarked
    exact (passed_of_takePositional reserves known matched done).accounts leading noEnd unnamed
      fun rest => continued_of_full full (word :: rest)

omit leading in
theorem accounts_of_step {word : String} (done : command.step word progress = .ok (.proceed next)) :
    argument.Accounts occurrences progress next word := by
  unfold step at done
  split at done
  next trailing =>
    -- Behind the mark all words stand in places, and none of them is ahead.
    obtain ⟨after, taken, same⟩ := Except.map_eq_ok.1 done
    cases same
    have passed := passed_of_takePositional reserves known matched taken
    refine fun rest => ⟨argument.continued progress [], passed.matched, ?_⟩
    have still : next.trailing = true := passed.trailing.trans trailing
    simp [ahead, still, trailing, continued_of_elsewhere passed.elsewhere]
  next leading =>
    split at done
    · cases done
    · split at done
      · cases done
      · obtain ⟨after, taken, same⟩ := Except.map_eq_ok.1 done
        cases same
        exact accounts_of_takeWord reserves known matched (by simpa using leading) taken

end

/-! All words -/

variable {words : List String} {last : Progress}

theorem accounts_of_proceeds (reserves : command.Reserves argument)
    (proceeds : command.Proceeds words progress last) (sound : command.Sound progress)
    (matched : argument.Matched occurrences progress.values) (behind : List String) :
    ∃ more, argument.Matched (occurrences ++ more) last.values ∧
      more ++ argument.ahead last behind = argument.ahead progress (words ++ behind) := by
  induction proceeds generalizing occurrences with
  | done =>
    refine ⟨[], ?_, List.nil_append _⟩
    rw [List.append_nil]
    exact matched
  | @step word rest progress middle last first others ih =>
    obtain ⟨now, matchedNow, same⟩ :=
      accounts_of_step reserves sound.pending matched first (rest ++ behind)
    have moves := @moves_of_step _ [word] _ _ _ (List.mem_singleton_self word) first
    have soundNow := moves.preserves (fun _ _ move sound => sound.move move) sound
    obtain ⟨later, matchedLater, sameLater⟩ := ih soundNow matchedNow
    refine ⟨now ++ later, ?_, ?_⟩
    · rw [← List.append_assoc]
      exact matchedLater
    · rw [List.append_assoc, sameLater, same, List.cons_append]

section

variable (reserves : command.Reserves argument) (proceeds : command.Proceeds words .start last)
  {sub : Option (String × Matches)} {found : Matches} (closed : command.close sub last = .ok found)

include reserves proceeds closed

theorem exists_matched_of_close (behind : List String) :
    ∃ more, argument.Matched (more ++ argument.continued last []) found.values ∧
      more ++ argument.ahead last behind = argument.given (words ++ behind) := by
  obtain ⟨more, matched, same⟩ :=
    accounts_of_proceeds reserves proceeds start_sound argument.matched_nil behind
  obtain ⟨final, settles, -, rfl⟩ := close_eq_ok closed
  have passed := (passed_of_settle reserves proceeds.sound.pending matched settles).1
  exact ⟨more, passed.matched, same⟩

/-- The values that a command matches to the argument are read from what its words give to it. -/
theorem matched_of_close : argument.Matched (argument.given words) found.values := by
  obtain ⟨more, matched, same⟩ := exists_matched_of_close reserves proceeds closed []
  have rest : argument.ahead last [] = argument.continued last [] := by simp [ahead, given]
  rw [rest, List.append_nil] at same
  rwa [same] at matched

/-- The name of a subcommand parts what is given to the command from what is given behind it. -/
theorem matched_of_enter (leading : last.trailing = false) (free : last.gathering? = none)
    {name : String} (noEnd : name ≠ "--") (unnamed : argument.named? name = none)
    (behind : List String) : ∃ here, argument.Matched here found.values ∧
      argument.given (words ++ name :: behind) = here ++ argument.given behind := by
  obtain ⟨more, matched, same⟩ := exists_matched_of_close reserves proceeds closed (name :: behind)
  refine ⟨_, matched, ?_⟩
  rw [← same, ahead, if_neg (by simp [leading]), continued_of_full free,
    given_cons_of_unnamed noEnd unnamed, List.append_assoc]

end

end Argument

end SignalExchange
