import Mathlib.Data.List.Nodup
import SignalExchange.Registry.Basic
import SignalExchange.Proofs.Except
import SignalExchange.Registry.Standard

/-! Consistent registries.

A registry is consistent when no kind repeats a name, its signal types refer to content types that
it has, and each of its exchanges can be registered. A manifest fits a registry exactly when its
candidates can be built and the registry is consistent with them.
-/

set_option autoImplicit false

namespace SignalExchange

theorem distinct_eq_ok {kind : String} {names : List String} :
    distinct kind names = .ok () ↔ names.Nodup := by
  have none := firstRepeated_eq_none_iff [] names
  unfold distinct
  cases repeated : firstRepeated [] names with
  | some name => simpa [repeated] using none
  | none => simpa [repeated] using none

namespace TypeMapping

theorem checkSignal_eq_ok {contentTypes : List ContentType} {signal : SignalType} :
    checkSignal contentTypes signal = .ok () ↔
      ∀ name ∈ signal.contentTypes, name ∈ contentTypes.map (·.name) := by
  unfold checkSignal
  cases missing : signal.contentTypes.find? fun name => name ∉ contentTypes.map (·.name) with
  | some name =>
    have unknown := List.find?_some missing
    have member := List.mem_of_find?_eq_some missing
    refine iff_of_false (fun refused => nomatch refused) fun known => ?_
    exact absurd (known name member) (by simpa using unknown)
  | none =>
    refine iff_of_true rfl fun name member => ?_
    simpa using List.find?_eq_none.1 missing name member

theorem build_eq_ok {contentTypes : List ContentType} {signalTypes : List SignalType}
    {mapping : TypeMapping} :
    build contentTypes signalTypes = .ok mapping ↔
      (contentTypes.map (·.name)).Nodup ∧ (signalTypes.map (·.name)).Nodup ∧
        (∀ signal ∈ signalTypes, ∀ name ∈ signal.contentTypes,
          name ∈ contentTypes.map (·.name)) ∧
        mapping = ⟨contentTypes, signalTypes⟩ := by
  unfold build
  rw [Except.bind_eq_ok]
  constructor
  · rintro ⟨_, contents, rest⟩
    obtain ⟨_, signals, rest⟩ := Except.bind_eq_ok.1 rest
    obtain ⟨_, known, rest⟩ := Except.bind_eq_ok.1 rest
    cases rest
    exact ⟨distinct_eq_ok.1 contents, distinct_eq_ok.1 signals,
      fun signal member => checkSignal_eq_ok.1 (Except.forM_eq_ok.1 known signal member), rfl⟩
  · rintro ⟨contents, signals, known, rfl⟩
    have checked : signalTypes.forM (checkSignal contentTypes) = .ok () :=
      Except.forM_eq_ok.2 fun signal member => checkSignal_eq_ok.2 (known signal member)
    refine ⟨(), distinct_eq_ok.2 contents, ?_⟩
    simp [distinct_eq_ok.2 signals, checked]

end TypeMapping

namespace Exchange

/-- The schema is declared for the exchange and well formed. -/
def Registrable (exchange : Exchange) : Prop :=
  exchange.schema.api = exchange.name ∧ ∃ fields, exchange.describe = .ok fields

theorem register_eq_ok {exchange : Exchange} {registered : RegisteredExchange} :
    exchange.register = .ok registered ↔ exchange.schema.api = exchange.name ∧
      registered.exchange = exchange ∧ exchange.describe = .ok registered.fields := by
  unfold register
  by_cases declared : exchange.schema.api = exchange.name
  · simp only [declared, ne_eq, not_true_eq_false, if_false, Except.bind_eq_ok]
    constructor
    · rintro ⟨fields, described, same⟩
      cases same
      exact ⟨trivial, rfl, described⟩
    · rintro ⟨-, rfl, described⟩
      exact ⟨registered.fields, described, rfl⟩
  · simp [declared]

theorem registrable_iff {exchange : Exchange} :
    exchange.Registrable ↔ ∃ registered, exchange.register = .ok registered := by
  constructor
  · rintro ⟨declared, fields, described⟩
    exact ⟨⟨exchange, fields⟩, register_eq_ok.2 ⟨declared, rfl, described⟩⟩
  · rintro ⟨registered, done⟩
    obtain ⟨declared, -, described⟩ := register_eq_ok.1 done
    exact ⟨declared, registered.fields, described⟩

end Exchange

namespace ExchangeMapping

theorem build_eq_ok {exchanges : List Exchange} {mapping : ExchangeMapping} :
    build exchanges = .ok mapping ↔ (exchanges.map (·.name)).Nodup ∧
      List.Forall₂ (fun exchange registered => exchange.register = .ok registered) exchanges
        mapping.registered := by
  unfold build
  rw [Except.bind_eq_ok]
  constructor
  · rintro ⟨_, names, rest⟩
    obtain ⟨registered, each, same⟩ := Except.bind_eq_ok.1 rest
    cases same
    exact ⟨distinct_eq_ok.1 names, Except.mapM_eq_ok.1 each⟩
  · rintro ⟨names, each⟩
    refine ⟨(), distinct_eq_ok.2 names, ?_⟩
    rw [Except.mapM_eq_ok.2 each]
    rfl

theorem exchanges_of_build {exchanges : List Exchange} {mapping : ExchangeMapping}
    (built : build exchanges = .ok mapping) : mapping.exchanges = exchanges := by
  have each := (build_eq_ok.1 built).2
  clear built
  rw [ExchangeMapping.exchanges]
  generalize mapping.registered = registered at each
  induction each with
  | nil => rfl
  | cons here _ ih => rw [List.map_cons, ih, (Exchange.register_eq_ok.1 here).2.1]

theorem described_of_build {exchanges : List Exchange} {mapping : ExchangeMapping}
    (built : build exchanges = .ok mapping) : ∀ registered ∈ mapping.registered,
      registered.exchange.describe = .ok registered.fields := by
  intro registered member
  have each := Except.mapM_eq_ok.2 (build_eq_ok.1 built).2
  obtain ⟨exchange, -, done⟩ := Except.exists_of_mem_mapM each registered member
  obtain ⟨-, rfl, described⟩ := Exchange.register_eq_ok.1 done
  exact described

theorem exists_build_iff {exchanges : List Exchange} :
    (∃ mapping, build exchanges = .ok mapping) ↔
      (exchanges.map (·.name)).Nodup ∧ ∀ exchange ∈ exchanges, exchange.Registrable := by
  simp only [Exchange.registrable_iff, ← Except.exists_mapM_eq_ok]
  constructor
  · rintro ⟨mapping, built⟩
    obtain ⟨names, each⟩ := build_eq_ok.1 built
    exact ⟨names, mapping.registered, Except.mapM_eq_ok.2 each⟩
  · rintro ⟨names, registered, each⟩
    exact ⟨⟨registered⟩, build_eq_ok.2 ⟨names, Except.mapM_eq_ok.1 each⟩⟩

end ExchangeMapping

namespace Registry

structure Consistent (registry : Registry) : Prop where
  contentNames : (registry.contentTypes.map (·.name)).Nodup
  signalNames : (registry.signalTypes.map (·.name)).Nodup
  references : ∀ signal ∈ registry.signalTypes, ∀ name ∈ signal.contentTypes,
    name ∈ registry.contentTypes.map (·.name)
  exchangeNames : (registry.exchanges.map (·.name)).Nodup
  registrable : ∀ exchange ∈ registry.exchanges, exchange.Registrable

theorem standard_consistent : standard.Consistent := by
  refine ⟨by decide, by decide, by decide, by decide, fun exchange member => ?_⟩
  have which : exchange = Standard.threatExchange ∨ exchange = Standard.ncmec ∨
      exchange = Standard.localFile ∨ exchange = Standard.sample := by
    simpa [standard, Standard.exchanges] using member
  rcases which with rfl | rfl | rfl | rfl
  all_goals exact ⟨rfl, _, rfl⟩

theorem Consistent.types {registry : Registry} (consistent : registry.Consistent) :
    registry.types = .ok ⟨registry.contentTypes, registry.signalTypes⟩ :=
  TypeMapping.build_eq_ok.2 ⟨consistent.contentNames, consistent.signalNames,
    consistent.references, rfl⟩

theorem Consistent.exchangeMapping {registry : Registry} (consistent : registry.Consistent) :
    ∃ mapping, ExchangeMapping.build registry.exchanges = .ok mapping :=
  ExchangeMapping.exists_build_iff.2 ⟨consistent.exchangeNames, consistent.registrable⟩

end Registry

theorem Manifest.fit_eq_ok {manifest : Manifest} {registry : Registry} {built : List Exchange} :
    manifest.fit registry = .ok built ↔
      manifest.exchangeTypes.mapM (·.candidate) = .ok built ∧
        (registry.extend manifest built).Consistent := by
  unfold fit
  rw [Except.bind_eq_ok]
  constructor
  · rintro ⟨_, types, rest⟩
    obtain ⟨_, candidates, rest⟩ := Except.bind_eq_ok.1 rest
    obtain ⟨mapping, exchanges, same⟩ := Except.bind_eq_ok.1 rest
    cases same
    obtain ⟨contents, signals, references, -⟩ := TypeMapping.build_eq_ok.1 types
    obtain ⟨names, registrable⟩ := ExchangeMapping.exists_build_iff.1 ⟨mapping, exchanges⟩
    exact ⟨candidates, contents, signals, references, names, registrable⟩
  · rintro ⟨candidates, consistent⟩
    obtain ⟨mapping, exchanges⟩ := consistent.exchangeMapping
    refine ⟨_, consistent.types, ?_⟩
    rw [Registry.extend] at exchanges
    rw [candidates, Except.ok_bind, exchanges]
    rfl

end SignalExchange
