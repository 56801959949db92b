import SignalExchange.Proofs.Registry.Consistency

/-! Which manifests fit a consistent registry.

A manifest is judged by its own entries and by the names that the registry has. Nothing else in the
registry matters, and the registry with what it adds can take the next manifest.
-/

set_option autoImplicit false

namespace SignalExchange

namespace ExchangeType

theorem instantiate_eq_ok {type : ExchangeType} {exchange : Exchange} :
    type.instantiate = .ok exchange ↔
      type.construction = .built exchange ∧ exchange.name = type.name := by
  unfold instantiate
  cases construction : type.construction with
  | failed message => simp
  | brokeOff message => simp
  | built made =>
    by_cases named : made.name = type.name
    · simp only [named, if_true, Except.ok.injEq, Construction.built.injEq]
      constructor
      · intro same
        exact ⟨same, same ▸ named⟩
      · intro same
        exact same.1
    · simp only [named, if_false, reduceCtorEq, Construction.built.injEq, false_iff, not_and]
      intro same
      exact same ▸ named

theorem candidate_eq_ok {type : ExchangeType} {exchange : Exchange} :
    type.candidate = .ok exchange ↔
      type.construction = .built exchange ∧ exchange.name = type.name ∧
        ∃ fields, exchange.describe = .ok fields := by
  unfold candidate
  rw [Except.bind_eq_ok, ← and_assoc, ← instantiate_eq_ok]
  constructor
  · intro done
    obtain ⟨made, instantiated, checked⟩ := done
    cases described : made.describe with
    | error error => simp [described] at checked
    | ok fields =>
      rw [described] at checked
      cases checked
      exact ⟨instantiated, fields, described⟩
  · intro done
    obtain ⟨instantiated, fields, described⟩ := done
    refine ⟨exchange, instantiated, ?_⟩
    rw [described]
    rfl

/-- The constructor gives an exchange of the registered name, and the schema of the exchange is well
formed and declared for that name. -/
def Constructs (type : ExchangeType) (exchange : Exchange) : Prop :=
  type.construction = .built exchange ∧ exchange.name = type.name ∧
    (∃ fields, exchange.describe = .ok fields) ∧ exchange.schema.api = type.name

theorem constructs_iff {type : ExchangeType} {exchange : Exchange} :
    type.Constructs exchange ↔ type.candidate = .ok exchange ∧ exchange.Registrable := by
  rw [candidate_eq_ok, Exchange.Registrable, Constructs]
  constructor
  · intro constructs
    obtain ⟨made, named, described, declared⟩ := constructs
    exact ⟨⟨made, named, described⟩, declared.trans named.symm, described⟩
  · intro both
    obtain ⟨⟨made, named, described⟩, declared, -⟩ := both
    exact ⟨made, named, described, declared.trans named⟩

theorem names_of_candidates {types : List ExchangeType} {built : List Exchange}
    (candidates : types.mapM (·.candidate) = .ok built) :
    built.map (·.name) = types.map (·.name) := by
  have each := Except.mapM_eq_ok.1 candidates
  clear candidates
  induction each with
  | nil => rfl
  | cons here _ ih => rw [List.map_cons, List.map_cons, ih, (candidate_eq_ok.1 here).2.1]

theorem forall₂_constructs_iff {types : List ExchangeType} {built : List Exchange} :
    List.Forall₂ Constructs types built ↔
      types.mapM (·.candidate) = .ok built ∧ ∀ exchange ∈ built, exchange.Registrable := by
  rw [Except.mapM_eq_ok]
  induction types generalizing built with
  | nil =>
    simp only [List.forall₂_nil_left_iff, iff_self_and]
    intro none
    subst none
    exact fun _ member => nomatch member
  | cons type rest ih =>
    simp only [List.forall₂_cons_left_iff, ih, constructs_iff]
    constructor
    · intro constructed
      obtain ⟨exchange, more, ⟨candidate, first⟩, ⟨candidates, others⟩, rfl⟩ := constructed
      exact ⟨⟨exchange, more, candidate, candidates, rfl⟩, List.forall_mem_cons.2 ⟨first, others⟩⟩
    · intro both
      obtain ⟨⟨exchange, more, candidate, candidates, rfl⟩, registrable⟩ := both
      obtain ⟨first, others⟩ := List.forall_mem_cons.1 registrable
      exact ⟨exchange, more, ⟨candidate, first⟩, ⟨candidates, others⟩, rfl⟩

end ExchangeType

namespace Manifest

/-- What a manifest needs to join a registry. -/
structure Joins (manifest : Manifest) (registry : Registry) : Prop where
  contentNames : ((registry.contentTypes ++ manifest.contentTypes).map (·.name)).Nodup
  signalNames : ((registry.signalTypes ++ manifest.signalTypes).map (·.name)).Nodup
  references : ∀ signal ∈ manifest.signalTypes, ∀ name ∈ signal.contentTypes,
    name ∈ (registry.contentTypes ++ manifest.contentTypes).map (·.name)
  constructed : ∀ type ∈ manifest.exchangeTypes, ∃ exchange, type.Constructs exchange
  exchangeNames :
    (registry.exchanges.map (·.name) ++ manifest.exchangeTypes.map (·.name)).Nodup

variable {manifest : Manifest} {registry : Registry} {built : List Exchange}

theorem constructed_of_fit (fits : manifest.fit registry = .ok built) :
    List.Forall₂ ExchangeType.Constructs manifest.exchangeTypes built := by
  obtain ⟨candidates, consistent⟩ := fit_eq_ok.1 fits
  refine ExchangeType.forall₂_constructs_iff.2 ⟨candidates, fun exchange member => ?_⟩
  exact consistent.registrable exchange (List.mem_append_right _ member)

theorem joins_of_fit (fits : manifest.fit registry = .ok built) : manifest.Joins registry := by
  obtain ⟨candidates, consistent⟩ := fit_eq_ok.1 fits
  refine ⟨consistent.contentNames, consistent.signalNames, ?_, ?_, ?_⟩
  · intro signal member
    exact consistent.references signal (List.mem_append_right _ member)
  · exact Except.exists_forall₂_iff.1 ⟨built, constructed_of_fit fits⟩
  · have names := consistent.exchangeNames
    rw [Registry.extend, List.map_append, ExchangeType.names_of_candidates candidates] at names
    exact names

theorem fit_of_joins (consistent : registry.Consistent) (joins : manifest.Joins registry) :
    ∃ built, manifest.fit registry = .ok built := by
  obtain ⟨built, constructed⟩ := Except.exists_forall₂_iff.2 joins.constructed
  obtain ⟨candidates, registrable⟩ := ExchangeType.forall₂_constructs_iff.1 constructed
  refine ⟨built, fit_eq_ok.2 ⟨candidates, joins.contentNames, joins.signalNames, ?_, ?_, ?_⟩⟩
  · -- The signals of the registry refer to content types that it has without the manifest.
    intro signal member name refers
    rcases List.mem_append.1 member with old | new
    · rw [Registry.extend, List.map_append]
      exact List.mem_append_left _ (consistent.references signal old name refers)
    · exact joins.references signal new name refers
  · rw [Registry.extend, List.map_append, ExchangeType.names_of_candidates candidates]
    exact joins.exchangeNames
  · intro exchange member
    rcases List.mem_append.1 member with old | new
    · exact consistent.registrable exchange old
    · exact registrable exchange new

end Manifest

/-- A manifest fits a consistent registry exactly when it has what it needs to join. Then there is
one exchange for each of its entries, in their order, and the registry is consistent with all that
was added. -/
theorem fit_iff_joins {registry : Registry} (consistent : registry.Consistent)
    (manifest : Manifest) :
    ((∃ built, manifest.fit registry = .ok built) ↔ manifest.Joins registry) ∧
      ∀ built, manifest.fit registry = .ok built →
        List.Forall₂ ExchangeType.Constructs manifest.exchangeTypes built ∧
          (registry.extend manifest built).Consistent := by
  constructor
  · constructor
    · intro fits
      obtain ⟨built, fits⟩ := fits
      exact Manifest.joins_of_fit fits
    · intro joins
      exact Manifest.fit_of_joins consistent joins
  · intro built fits
    exact ⟨Manifest.constructed_of_fit fits, (Manifest.fit_eq_ok.1 fits).2⟩

/-- Hash lists join the standard registry with the content type that their signal refers to. -/
theorem hashlist_joins : Registry.standard.Consistent ∧ Catalog.hashlist.Joins Registry.standard ∧
    Catalog.hashlist.fit Registry.standard = .ok [Catalog.hashlistExchange] ∧
    (Registry.standard.extend Catalog.hashlist [Catalog.hashlistExchange]).Consistent := by
  have fits : Catalog.hashlist.fit Registry.standard = .ok [Catalog.hashlistExchange] := rfl
  obtain ⟨joins, after⟩ := fit_iff_joins Registry.standard_consistent Catalog.hashlist
  exact ⟨Registry.standard_consistent, joins.1 ⟨_, fits⟩, fits, (after _ fits).2⟩

end SignalExchange
