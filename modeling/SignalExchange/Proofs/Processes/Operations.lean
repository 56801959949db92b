import SignalExchange.Proofs.Processes.Presence
import SignalExchange.Proofs.Processes.Steps

/-! Operations on records and extensions, one call at a time.

An operation looks first and writes last. What it finds may be out of date when it writes, so all
that counts is what the last call tells: when the operation succeeds, that call had its effect, and
no other call changed the presence of a row.
-/

set_option autoImplicit false

namespace SignalExchange

open Call Database

def CollabStore.stepwise {σ : Type} (store : CollabStore (StateM σ)) : CollabStore (Steps σ) where
  find? name := Steps.once (store.find? name)
  list := Steps.once store.list
  create collab := Steps.once (store.create collab)
  update collab := Steps.once (store.update collab)
  delete collab := Steps.once (store.delete collab)

def ExtensionStore.stepwise {σ : Type} (store : ExtensionStore (StateM σ)) :
    ExtensionStore (Steps σ) where
  list := Steps.once store.list
  contains module := Steps.once (store.contains module)
  add module := Steps.once (store.add module)
  remove module := Steps.once (store.remove module)

inductive Operation where
  | apply (schema : Schema) (edit : ResolvedEdit)
  | importAs (name : String) (schema : Schema) (fields : EditSet)
  | remove (name : String)
  | join (workspace : Workspace) (module : String)
  | leave (module : String)

namespace Operation

def perform {m : Type → Type} [Monad m] (records : CollabStore m) (modules : ExtensionStore m) :
    Operation → ExceptT ConfigError m Effect
  | apply schema edit => do
    match ← records.apply schema edit with
    | .created collab => return .created collab.name
    | .updated _ => return .edited edit.identifier
  | importAs name schema fields => do
    let _ ← records.importAs name schema fields
    return .created name
  | remove name => do
    let _ ← records.remove name
    return .deleted name
  | join workspace module => do
    let _ ← modules.join workspace module
    return .added module
  | leave module => do
    modules.leave module
    return .removed module

def steps (operation : Operation) : Steps Database (Except ConfigError Effect) :=
  (operation.perform collabStore.stepwise extensionStore.stepwise).run

end Operation

namespace Steps

/-- The effect of a program that is done and succeeded. -/
def effect? : Steps Database (Except ConfigError Effect) → Option Effect
  | .done (.ok effect) => some effect
  | _ => none

/-- Each call that ends the program with an effect has that effect on the presence of rows, and any
other call leaves it as it was. -/
inductive Honest : Steps Database (Except ConfigError Effect) → Prop where
  | done (result : Except ConfigError Effect) : Honest (.done result)
  | call {after : Database → Database}
      {next : Database → Steps Database (Except ConfigError Effect)}
      (accounted : ∀ database, database.Orderly →
        Accounted database (after database) (next database).effect?)
      (rest : ∀ database, database.Orderly → Honest (next database)) :
      Honest (.call after next)

/-- The program has not succeeded yet, and its calls do what they tell. -/
structure Pending (steps : Steps Database (Except ConfigError Effect)) : Prop where
  unfinished : steps.effect? = none
  honest : Honest steps

section

variable {α : Type} {rest : α → ExceptT ConfigError (Steps Database) Effect}

theorem pending_failed (error : ConfigError) : Pending (.done (.error error)) :=
  ⟨rfl, .done _⟩

theorem pending_ofExcept {result : Except ConfigError α}
    (goesOn : ∀ value, result = .ok value → Pending (rest value).run) :
    Pending (MonadExcept.ofExcept result >>= rest).run := by
  cases result with
  | ok value => exact goesOn value rfl
  | error error => exact pending_failed error

/-- What comes after a call either is done with the effect that the call told, or goes on when the
call told none. -/
theorem pending_call {action : DatabaseM α} {effect? : α → Option Effect}
    (tells : Tells action effect?)
    (goesOn : ∀ database value, database.Orderly → (outcome action database).1 = .ok value →
      (rest value).run.effect? = effect? value ∧ Honest (rest value).run) :
    Pending (ConfigError.onStore (once action) >>= rest).run := by
  rw [run_onStore_bind]
  refine ⟨rfl, .call (fun database orderly => ?_) fun database orderly => ?_⟩
  · have accounted := tells database orderly
    cases result : (outcome action database).1 with
    | error error =>
      rw [result] at accounted
      exact accounted
    | ok value =>
      rw [result] at accounted
      simp only [(goesOn database value orderly result).1]
      exact accounted
  · cases result : (outcome action database).1 with
    | error error => exact .done _
    | ok value => exact (goesOn database value orderly result).2

theorem pending_read {action : DatabaseM α} (tells : Tells action fun _ => none)
    (goesOn : ∀ database value, database.Orderly → (outcome action database).1 = .ok value →
      Pending (rest value).run) :
    Pending (ConfigError.onStore (once action) >>= rest).run :=
  pending_call tells fun database value orderly result =>
    ⟨(goesOn database value orderly result).unfinished,
      (goesOn database value orderly result).honest⟩

end

end Steps

open Steps

namespace Operation

section

variable {rest : Outcome → ExceptT ConfigError (Steps Database) Effect}

theorem pending_createNew (schema : Schema) (edit : EditSet)
    (tells : ∀ collab, Collab.construct schema edit = .ok collab →
      (rest (.created collab)).run = .done (.ok (.created collab.name))) :
    Pending (collabStore.stepwise.createNew schema edit >>= rest).run := by
  rw [CollabStore.createNew, bind_assoc]
  refine pending_ofExcept fun collab constructed => ?_
  rw [bind_assoc]
  refine pending_call (tells_createCollab collab) fun _ _ _ _ => ?_
  rw [pure_bind, tells collab constructed]
  exact ⟨rfl, .done _⟩

theorem pending_updateExisting (schema : Schema) (existing : Collab) (edit : EditSet)
    (tells : ∀ collab, (rest (.updated collab)).run = .done (.ok (.edited existing.name))) :
    Pending (collabStore.stepwise.updateExisting schema existing edit >>= rest).run := by
  unfold CollabStore.updateExisting
  split
  · exact pending_failed _
  · simp only [bind_assoc]
    refine pending_ofExcept fun collab assigned => ?_
    refine pending_call (tells_updateCollab collab) fun _ _ _ _ => ?_
    rw [pure_bind, tells, Collab.name_of_assignAll assigned]
    exact ⟨rfl, .done _⟩

end

theorem pending_apply (schema : Schema) (edit : ResolvedEdit) :
    Pending (apply schema edit).steps := by
  rw [steps, perform, CollabStore.apply, bind_assoc]
  refine pending_read (tells_findCollab _) fun database held orderly found => ?_
  cases held with
  | none =>
    cases edit.create with
    | true => exact pending_createNew schema edit.edit fun _ _ => rfl
    | false => exact pending_failed _
  | some existing =>
    have named := name_of_findCollab orderly found
    cases edit.create with
    | true => exact pending_failed _
    | false =>
      refine pending_updateExisting schema existing edit.edit fun collab => ?_
      rw [named]
      rfl

theorem pending_importAs (name : String) (schema : Schema) (fields : EditSet) :
    Pending (importAs name schema fields).steps := by
  rw [steps, perform, CollabStore.importAs, bind_assoc]
  refine pending_read (tells_findCollab _) fun database held orderly found => ?_
  cases held with
  | some existing => exact pending_failed _
  | none =>
    simp only [Option.isSome_none, Bool.false_eq_true, if_false, bind_assoc]
    refine pending_createNew schema _ fun collab constructed => ?_
    have named := Collab.named_of_construct constructed
    rw [EditSet.importedAs, EditSet.get?_set_of_ne _ (by decide),
      EditSet.get?_set_of_ne _ (by decide), EditSet.get?_set_self] at named
    cases named
    rfl

theorem pending_remove (name : String) : Pending (remove name).steps := by
  rw [steps, perform, CollabStore.remove, bind_assoc]
  refine pending_read (tells_findCollab _) fun database held orderly found => ?_
  cases held with
  | none => exact pending_failed _
  | some existing =>
    have named := name_of_findCollab orderly found
    simp only [bind_assoc]
    refine pending_call (tells_deleteCollab existing) fun _ deleted _ _ => ?_
    rw [named]
    cases deleted with
    | true => exact ⟨rfl, .done _⟩
    | false => exact ⟨rfl, .done _⟩

theorem pending_join (workspace : Workspace) (module : String) :
    Pending (join workspace module).steps := by
  rw [steps, perform, ExtensionStore.join, bind_assoc]
  refine pending_read (tells_hasExtension module) fun database known _ _ => ?_
  cases known with
  | true => exact pending_failed _
  | false =>
    simp only [Bool.false_eq_true, if_false, bind_assoc]
    refine pending_ofExcept fun manifest _ => ?_
    refine pending_ofExcept fun built _ => ?_
    refine pending_call (tells_addExtension module) fun _ added _ _ => ?_
    cases added with
    | true => exact ⟨rfl, .done _⟩
    | false => exact ⟨rfl, .done _⟩

theorem pending_leave (module : String) : Pending (leave module).steps := by
  rw [steps, perform, ExtensionStore.leave, bind_assoc]
  refine pending_call (tells_removeExtension module) fun _ removed _ _ => ?_
  cases removed with
  | true => exact ⟨rfl, .done _⟩
  | false => exact ⟨rfl, .done _⟩

theorem pending_steps (operation : Operation) : Pending operation.steps := by
  cases operation with
  | apply schema edit => exact pending_apply schema edit
  | importAs name schema fields => exact pending_importAs name schema fields
  | remove name => exact pending_remove name
  | join workspace module => exact pending_join workspace module
  | leave module => exact pending_leave module

/-! Operations that nobody interrupts -/

section

variable {σ : Type} (records : CollabStore (StateM σ)) (modules : ExtensionStore (StateM σ))

theorem agrees_congruence : Congruence fun α => @Agrees ConfigError σ α :=
  ⟨.pure, .throw, .bind⟩

theorem agrees_records :
    CollabStore.Related (fun α => @Agrees ConfigError σ α) records.stepwise records :=
  ⟨fun _ => .onStore _, fun _ => .onStore _, fun _ => .onStore _, fun _ => .onStore _⟩

theorem agrees_modules :
    ExtensionStore.Related (fun α => @Agrees ConfigError σ α) modules.stepwise modules :=
  ⟨fun _ => .onStore _, fun _ => .onStore _, fun _ => .onStore _⟩

/-- An operation that no other interrupts does what it does as a whole. -/
theorem agrees_perform (operation : Operation) :
    Agrees (operation.perform records.stepwise modules.stepwise)
      (operation.perform records modules) := by
  have congruence := @agrees_congruence σ
  cases operation with
  | apply schema edit =>
    refine ((agrees_records records).apply congruence schema edit).bind fun done => ?_
    cases done <;> exact .pure _
  | importAs name schema fields =>
    exact ((agrees_records records).importAs congruence name schema fields).bind fun _ => .pure _
  | remove name => exact ((agrees_records records).remove congruence name).bind fun _ => .pure _
  | join workspace module =>
    exact ((agrees_modules modules).join congruence workspace module).bind fun _ => .pure _
  | leave module =>
    exact ((agrees_modules modules).leave congruence module).bind fun _ => .pure _

end

end Operation

end SignalExchange
