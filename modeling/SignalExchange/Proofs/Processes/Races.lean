import SignalExchange.Proofs.Processes.Operations

/-! Processes that share one database.

The calls of all processes come in any order, so any process may act on what it found a while ago.
The effects that the processes report still tell, one after another, which rows there are.
-/

set_option autoImplicit false

namespace SignalExchange

open Database

/-! Effects one after another -/

/-- The effects, oldest first, lead from no rows to the presence of those that there are. Each finds
a row where it needs one, and none where it makes one. -/
inductive Leads : List Effect → (TableName × String → Bool) → Prop where
  | nil {has : TableName × String → Bool} (none : ∀ effect : Effect, has effect.place = false) :
      Leads [] has
  | concat {log : List Effect} {effect : Effect} {has after : TableName × String → Bool}
      (before : Leads log has) (moves : effect.Moves has after) : Leads (log ++ [effect]) after

namespace Effect

/-- The first effect makes a row, and the second one takes it away. -/
inductive Reverse : Effect → Effect → Prop where
  | record (name : String) : Reverse (.created name) (.deleted name)
  | module (module : String) : Reverse (.added module) (.removed module)

variable {make unmake : Effect}

theorem Reverse.place_eq (reverse : Reverse make unmake) : unmake.place = make.place := by
  cases reverse <;> rfl

theorem Reverse.ne (reverse : Reverse make unmake) : make ≠ unmake := by
  cases reverse <;> exact nofun

theorem Reverse.count_one (reverse : Reverse make unmake) (effect : Effect) :
    ([effect].count make : Int) - [effect].count unmake =
      if effect.place = make.place then
        (if effect.leaves then 1 else 0) - (if effect.finds then 1 else 0)
      else 0 := by
  cases reverse <;> cases effect <;>
    simp [place, leaves, finds, List.count_singleton] <;> split <;> rfl

end Effect

namespace Leads

open Effect

variable {log : List Effect} {has : TableName × String → Bool} {make unmake : Effect}

theorem count_sub_count (leads : Leads log has) (reverse : Reverse make unmake) :
    (log.count make : Int) - log.count unmake = if has make.place then 1 else 0 := by
  induction leads with
  | nil none => simp [none]
  | @concat log effect has after before moves ih =>
    obtain ⟨found, rfl⟩ := moves
    have one := reverse.count_one effect
    rw [List.count_append, List.count_append]
    push_cast
    by_cases same : effect.place = make.place
    · rw [if_pos same] at one
      rw [same] at found
      rw [found] at ih
      rw [same, Function.update_self]
      omega
    · rw [if_neg same] at one
      rw [Function.update_of_ne (Ne.symm same)]
      omega

theorem found {earlier later : List Effect} {effect : Effect}
    (leads : Leads (earlier ++ effect :: later) has) :
    ∃ before, Leads earlier before ∧ before effect.place = effect.finds := by
  generalize whole : earlier ++ effect :: later = log at leads
  -- Effects are taken off the end until the one in the middle is the last.
  induction leads generalizing later with
  | nil => simp at whole
  | concat before moves ih =>
    cases later using List.reverseRecOn with
    | nil =>
      obtain ⟨rfl, last⟩ := List.append_inj' whole rfl
      cases last
      exact ⟨_, before, moves.found⟩
    | append_singleton later last =>
      rw [← List.cons_append, ← List.append_assoc] at whole
      exact ih (List.append_inj' whole rfl).1

/-- Before an effect that makes or takes away a row, the row was made as often as taken away, or
once more often. -/
theorem count_before {earlier later : List Effect} {effect : Effect}
    (leads : Leads (earlier ++ effect :: later) has) (reverse : Reverse make unmake)
    (same : effect.place = make.place) :
    (earlier.count make : Int) - earlier.count unmake = if effect.finds then 1 else 0 := by
  obtain ⟨before, earlier, found⟩ := leads.found
  rw [earlier.count_sub_count reverse, ← same, found]

/-- From one effect to the next of the same kind, the row is made as often as taken away. -/
theorem count_between {earlier between later : List Effect} {effect : Effect}
    (leads : Leads (earlier ++ effect :: (between ++ effect :: later)) has)
    (reverse : Reverse make unmake) (same : effect.place = make.place) :
    (effect :: between).count make = (effect :: between).count unmake := by
  have first := leads.count_before reverse same
  rw [← List.cons_append, ← List.append_assoc] at leads
  have second := leads.count_before reverse same
  rw [List.count_append, List.count_append] at second
  omega

theorem unmake_between {earlier between later : List Effect}
    (leads : Leads (earlier ++ make :: (between ++ make :: later)) has)
    (reverse : Reverse make unmake) : unmake ∈ between := by
  have even := leads.count_between reverse rfl
  rw [List.count_cons_self, List.count_cons_of_ne reverse.ne] at even
  exact List.count_pos_iff.1 (by omega)

theorem make_between {earlier between later : List Effect}
    (leads : Leads (earlier ++ unmake :: (between ++ unmake :: later)) has)
    (reverse : Reverse make unmake) : make ∈ between := by
  have even := leads.count_between reverse reverse.place_eq
  rw [List.count_cons_self, List.count_cons_of_ne reverse.ne.symm] at even
  exact List.count_pos_iff.1 (by omega)

theorem accounted {before after : Database} {effect? : Option Effect}
    (leads : Leads log before.has) (told : Accounted before after effect?) :
    Leads (log ++ effect?.toList) after.has := by
  cases effect? with
  | some effect => exact leads.concat told.2
  | none =>
    have same : after.has = before.has := told.2
    rw [same, Option.toList_none, List.append_nil]
    exact leads

end Leads

/-! Processes -/

/-- A database, what remains of the operation that each process is at, and the effects of the
operations that succeeded, oldest first. -/
structure Shared (ι : Type) where
  database : Database
  running : ι → Option (Steps Database (Except ConfigError Effect))
  log : List Effect

namespace Steps

def unfinished? {σ α : Type} : Steps σ α → Option (Steps σ α)
  | .done _ => none
  | .call after next => some (.call after next)

theorem eq_of_unfinished? {σ α : Type} {steps rest : Steps σ α}
    (goesOn : steps.unfinished? = some rest) : rest = steps := by
  cases steps with
  | done value => cases goesOn
  | call after next =>
    cases goesOn
    rfl

end Steps

namespace Shared

variable {ι : Type} [DecidableEq ι]

/-- A process made a call. The effect of its operation is counted now if the call was the last. -/
def advance (shared : Shared ι) (process : ι) (after : Database)
    (rest : Steps Database (Except ConfigError Effect)) : Shared ι :=
  { database := after
    running := Function.update shared.running process rest.unfinished?
    log := shared.log ++ rest.effect?.toList }

inductive Next (shared : Shared ι) : Shared ι → Prop where
  | begins (process : ι) (free : shared.running process = none) (operation : Operation) :
      Next shared
        { shared with running := Function.update shared.running process operation.steps }
  | calls (process : ι) {after : Database → Database}
      {next : Database → Steps Database (Except ConfigError Effect)}
      (busy : shared.running process = some (.call after next)) :
      Next shared
        (shared.advance process (after shared.database) (next shared.database))
  | stops (process : ι) :
      Next shared { shared with running := Function.update shared.running process none }

inductive Reached : Shared ι → Prop where
  | start {database : Database} (noRecords : database.collabs = some [])
      (noModules : database.extensions = some []) : Reached ⟨database, fun _ => none, []⟩
  | next {shared after : Shared ι} (before : Reached shared) (step : shared.Next after) :
      Reached after

/-- What every call of every process keeps. -/
structure Sound (shared : Shared ι) : Prop where
  orderly : shared.database.Orderly
  honest : ∀ process steps, shared.running process = some steps → steps.Honest
  leads : Leads shared.log shared.database.has

omit [DecidableEq ι] in
theorem sound_start {database : Database} (noRecords : database.collabs = some [])
    (noModules : database.extensions = some []) :
    Sound (⟨database, fun _ => none, []⟩ : Shared ι) := by
  refine ⟨⟨⟨[], noRecords, Ascending.nil, by simp⟩, [], noModules, Ascending.nil⟩, nofun, .nil ?_⟩
  intro effect
  cases effect <;> simp [Effect.place, has_record noRecords, has_module noModules]

variable {shared after : Shared ι}

theorem Sound.update (sound : Sound shared) {process : ι}
    {steps? : Option (Steps Database (Except ConfigError Effect))}
    (honest : ∀ steps, steps? = some steps → steps.Honest) (other : ι)
    (steps : Steps Database (Except ConfigError Effect))
    (running : Function.update shared.running process steps? other = some steps) :
    steps.Honest := by
  by_cases same : other = process
  · subst same
    rw [Function.update_self] at running
    exact honest steps running
  · rw [Function.update_of_ne same] at running
    exact sound.honest other steps running

theorem Sound.next (sound : shared.Sound) (step : shared.Next after) : after.Sound := by
  cases step with
  | begins process free operation =>
    refine ⟨sound.orderly, sound.update fun steps same => ?_, sound.leads⟩
    cases same
    exact operation.pending_steps.honest
  | stops process => exact ⟨sound.orderly, sound.update nofun, sound.leads⟩
  | calls process busy =>
    cases sound.honest _ _ busy with
    | call accounted honest =>
      have told := accounted shared.database sound.orderly
      refine ⟨told.1, sound.update fun steps goesOn => ?_, sound.leads.accounted told⟩
      rw [Steps.eq_of_unfinished? goesOn]
      exact honest shared.database sound.orderly

theorem Reached.sound (reached : Reached shared) : shared.Sound := by
  induction reached with
  | start noRecords noModules => exact sound_start noRecords noModules
  | next _ step ih => exact ih.next step

end Shared

/-- At every point, the operations that made a row and succeeded are as many as those that took it
away, and one more when there is the row. So of operations that race to make one row, or to take it
away, no two succeed unless one of the other kind did in between, and an edit succeeds only on a row
that there is. -/
theorem counts_of_reached {ι : Type} [DecidableEq ι] {shared : Shared ι}
    (reached : shared.Reached) :
    (∀ name, (shared.log.count (.created name) : Int) - shared.log.count (.deleted name) =
      if shared.database.has (.collabs, name) then 1 else 0) ∧
    (∀ module, (shared.log.count (.added module) : Int) - shared.log.count (.removed module) =
      if shared.database.has (.extensions, module) then 1 else 0) ∧
    (∀ make unmake, Effect.Reverse make unmake → ∀ earlier between later,
      (shared.log = earlier ++ make :: (between ++ make :: later) → unmake ∈ between) ∧
      (shared.log = earlier ++ unmake :: (between ++ unmake :: later) → make ∈ between)) ∧
    ∀ name earlier later, shared.log = earlier ++ .edited name :: later →
      earlier.count (.created name) = earlier.count (.deleted name) + 1 := by
  have leads := reached.sound.leads
  refine ⟨fun name => leads.count_sub_count (.record name),
    fun module => leads.count_sub_count (.module module),
    fun make unmake reverse earlier between later => ⟨fun same => ?_, fun same => ?_⟩,
    fun name earlier later same => ?_⟩
  · rw [same] at leads
    exact leads.unmake_between reverse
  · rw [same] at leads
    exact leads.make_between reverse
  · rw [same] at leads
    have count := leads.count_before (.record name) rfl
    rw [Effect.finds, if_pos rfl] at count
    omega

/-- Creates a record that has no fields of its own. -/
def createPlain (name : String) : Operation :=
  .apply (Schema.ofFields "demo" []) ⟨name, ⟨[("name", .string name)]⟩, true⟩

/-- Two processes create the same record after neither found one. Only one of them succeeds. -/
theorem second_create_fails : ∃ shared : Shared Bool, shared.Reached ∧
    shared.running = (fun _ => none) ∧ shared.log = [.created "a"] ∧
    shared.database.has (.collabs, "a") = true ∧
    (shared.log.count (.created "a") : Int) - shared.log.count (.deleted "a") = 1 := by
  have start : Shared.Reached (⟨Database.empty, fun _ => none, []⟩ : Shared Bool) := .start rfl rfl
  have firstBegins := start.next (.begins false rfl (createPlain "a"))
  have secondBegins := firstBegins.next (.begins true rfl (createPlain "a"))
  have firstLooks := secondBegins.next (.calls false rfl)
  have secondLooks := firstLooks.next (.calls true rfl)
  have firstWrites := secondLooks.next (.calls false rfl)
  have secondFails := firstWrites.next (.calls true rfl)
  refine ⟨_, secondFails, ?_, rfl, rfl, (counts_of_reached secondFails).1 "a"⟩
  funext process
  cases process <;> rfl

end SignalExchange
