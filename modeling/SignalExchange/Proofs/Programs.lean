import SignalExchange.Collab.Rules
import SignalExchange.Proofs.Call
import SignalExchange.Workspace

/-! The rules for records and extensions over two stores at once.

The rules are programs over any stores. A relation between programs that is kept when programs are
put together holds of the rules as soon as it holds of the calls to the stores.
-/

set_option autoImplicit false

namespace SignalExchange

variable {m n : Type → Type} [Monad m] [Monad n]

/-- A relation that is kept when programs are put together. -/
structure Congruence
    (related : (α : Type) → ExceptT ConfigError m α → ExceptT ConfigError n α → Prop) : Prop where
  ofPure : ∀ {α : Type} (value : α), related α (pure value) (pure value)
  ofThrow : ∀ {α : Type} (error : ConfigError), related α (throw error) (throw error)
  ofBind : ∀ {α β : Type} {first : ExceptT ConfigError m α} {second : ExceptT ConfigError n α}
    {next : α → ExceptT ConfigError m β} {other : α → ExceptT ConfigError n β},
    related α first second → (∀ value, related β (next value) (other value)) →
    related β (first >>= next) (second >>= other)

variable {related : (α : Type) → ExceptT ConfigError m α → ExceptT ConfigError n α → Prop}

theorem Congruence.ofExcept (congruence : Congruence related) {α : Type}
    (result : Except ConfigError α) :
    related α (MonadExcept.ofExcept result) (MonadExcept.ofExcept result) := by
  cases result with
  | ok value => exact congruence.ofPure value
  | error error => exact congruence.ofThrow error

theorem Congruence.guarded (congruence : Congruence related) {α : Type} {refused : Prop}
    {_ : Decidable refused} {error : ConfigError} {first : PUnit → ExceptT ConfigError m α}
    {second : PUnit → ExceptT ConfigError n α}
    (rest : ∀ passed, related α (first passed) (second passed)) :
    related α (if refused then throw error >>= first else first ⟨⟩)
      (if refused then throw error >>= second else second ⟨⟩) := by
  split
  · exact congruence.ofBind (congruence.ofThrow error) rest
  · exact rest ⟨⟩

namespace CollabStore

/-- The relation holds of each call that the rules for records make. -/
structure Related
    (related : (α : Type) → ExceptT ConfigError m α → ExceptT ConfigError n α → Prop)
    (first : CollabStore m) (second : CollabStore n) : Prop where
  find? : ∀ name, related _ (ConfigError.onStore (first.find? name))
    (ConfigError.onStore (second.find? name))
  create : ∀ collab, related _ (ConfigError.onStore (first.create collab))
    (ConfigError.onStore (second.create collab))
  update : ∀ collab, related _ (ConfigError.onStore (first.update collab))
    (ConfigError.onStore (second.update collab))
  delete : ∀ collab, related _ (ConfigError.onStore (first.delete collab))
    (ConfigError.onStore (second.delete collab))

namespace Related

variable {first : CollabStore m} {second : CollabStore n} (calls : Related related first second)
  (congruence : Congruence related)

include calls congruence

theorem createNew (schema : Schema) (edit : EditSet) :
    related _ (first.createNew schema edit) (second.createNew schema edit) :=
  congruence.ofBind (congruence.ofExcept _) fun collab =>
    congruence.ofBind (calls.create collab) fun _ => congruence.ofPure _

theorem updateExisting (schema : Schema) (existing : Collab) (edit : EditSet) :
    related _ (first.updateExisting schema existing edit)
      (second.updateExisting schema existing edit) := by
  unfold CollabStore.updateExisting
  exact congruence.guarded fun _ => congruence.ofBind (congruence.ofExcept _) fun collab =>
    congruence.ofBind (calls.update collab) fun _ => congruence.ofPure _

theorem apply (schema : Schema) (edit : ResolvedEdit) :
    related _ (first.apply schema edit) (second.apply schema edit) := by
  refine congruence.ofBind (calls.find? edit.identifier) fun held => ?_
  cases held with
  | none =>
    cases edit.create with
    | true => exact calls.createNew congruence schema edit.edit
    | false => exact congruence.ofThrow _
  | some existing =>
    cases edit.create with
    | true => exact congruence.ofThrow _
    | false => exact calls.updateExisting congruence schema existing edit.edit

theorem importAs (name : String) (schema : Schema) (fields : EditSet) :
    related _ (first.importAs name schema fields) (second.importAs name schema fields) := by
  refine congruence.ofBind (calls.find? name) fun held => ?_
  exact congruence.guarded fun _ =>
    congruence.ofBind (calls.createNew congruence schema _) fun _ => congruence.ofPure _

theorem remove (name : String) : related _ (first.remove name) (second.remove name) := by
  refine congruence.ofBind (calls.find? name) fun held => ?_
  cases held with
  | none => exact congruence.ofThrow _
  | some existing =>
    refine congruence.ofBind (calls.delete existing) fun deleted => ?_
    cases deleted with
    | true => exact congruence.ofPure _
    | false => exact congruence.ofThrow _

end Related

end CollabStore

namespace ExtensionStore

/-- The relation holds of each call that adding and removing an extension makes. -/
structure Related
    (related : (α : Type) → ExceptT ConfigError m α → ExceptT ConfigError n α → Prop)
    (first : ExtensionStore m) (second : ExtensionStore n) : Prop where
  contains : ∀ module, related _ (ConfigError.onStore (first.contains module))
    (ConfigError.onStore (second.contains module))
  add : ∀ module, related _ (ConfigError.onStore (first.add module))
    (ConfigError.onStore (second.add module))
  remove : ∀ module, related _ (ConfigError.onStore (first.remove module))
    (ConfigError.onStore (second.remove module))

namespace Related

variable {first : ExtensionStore m} {second : ExtensionStore n}
  (calls : Related related first second) (congruence : Congruence related)

include calls congruence

theorem join (workspace : Workspace) (module : String) :
    related _ (first.join workspace module) (second.join workspace module) := by
  refine congruence.ofBind (calls.contains module) fun known => ?_
  refine congruence.guarded fun _ => congruence.ofBind (congruence.ofExcept _) fun manifest =>
    congruence.ofBind (congruence.ofExcept _) fun built =>
      congruence.ofBind (calls.add module) fun added => ?_
  cases added with
  | true => exact congruence.ofPure _
  | false => exact congruence.ofThrow _

theorem leave (module : String) : related _ (first.leave module) (second.leave module) := by
  refine congruence.ofBind (calls.remove module) fun removed => ?_
  cases removed with
  | true => exact congruence.ofPure _
  | false => exact congruence.ofThrow _

end Related

end ExtensionStore

end SignalExchange
