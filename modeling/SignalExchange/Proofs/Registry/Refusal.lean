import SignalExchange.Proofs.Registry.Validation

/-! How manifests are refused.

The types of a manifest are looked at first, then its entries one by one, and last the exchanges
that were built for them. The error names the first thing that is wrong. All errors but one are the
user's to mend: an exchange that is built with a schema for another exchange is taken for a mistake
in the registry itself.
-/

set_option autoImplicit false

namespace SignalExchange

theorem distinct_eq_error {kind : String} {names : List String} {error : ConfigError}
    (refused : distinct kind names = .error error) :
    ¬names.Nodup ∧ ∃ name, error = .duplicateRegistration kind name := by
  refine ⟨fun nodup => ?_, ?_⟩
  · rw [distinct_eq_ok.2 nodup] at refused
    cases refused
  · unfold distinct at refused
    cases repeated : firstRepeated [] names with
    | none =>
      rw [repeated] at refused
      cases refused
    | some name =>
      rw [repeated] at refused
      cases refused
      exact ⟨name, rfl⟩

namespace TypeMapping

theorem checkSignal_eq_error {contentTypes : List ContentType} {signal : SignalType}
    {error : ConfigError} (refused : checkSignal contentTypes signal = .error error) :
    ∃ content, error = .incompatibleSignalType signal.name content := by
  unfold checkSignal at refused
  split at refused
  next missing _ =>
    cases refused
    exact ⟨missing, rfl⟩
  next => cases refused

/-- Types are refused for a repeated name or an unknown content type. -/
theorem build_eq_error {contentTypes : List ContentType} {signalTypes : List SignalType}
    {error : ConfigError} (refused : build contentTypes signalTypes = .error error) :
    (∃ kind name, error = .duplicateRegistration kind name) ∨
      ∃ signal content, error = .incompatibleSignalType signal content := by
  unfold build at refused
  rcases Except.bind_eq_error.1 refused with contents | ⟨_, -, refused⟩
  · exact .inl ⟨_, (distinct_eq_error contents).2⟩
  rcases Except.bind_eq_error.1 refused with signals | ⟨_, -, refused⟩
  · exact .inl ⟨_, (distinct_eq_error signals).2⟩
  rcases Except.bind_eq_error.1 refused with unknown | ⟨_, -, done⟩
  · obtain ⟨signal, -, missing⟩ := Except.forM_eq_error unknown
    exact .inr ⟨signal.name, checkSignal_eq_error missing⟩
  · cases done

end TypeMapping

namespace ExchangeType

/-- No exchange of the registered name with a well-formed schema comes of the entry, for the reason
that the message gives. -/
inductive Unusable (type : ExchangeType) : String → Prop where
  | failed {message : String} (failed : type.construction = .failed message) :
      Unusable type message
  | brokeOff {message : Option String} (broke : type.construction = .brokeOff message) :
      Unusable type (message.getD "constructor panicked")
  | misnamed {exchange : Exchange} (built : type.construction = .built exchange)
      (other : exchange.name ≠ type.name) :
      Unusable type s!"registered as '{type.name}' but built '{exchange.name}'"
  | malformed {exchange : Exchange} {error : ConfigError}
      (built : type.construction = .built exchange) (named : exchange.name = type.name)
      (refused : exchange.describe = .error error) : Unusable type error.message

variable {type : ExchangeType}

theorem candidate_of_unusable {message : String} (unusable : type.Unusable message) :
    type.candidate = .error (.instantiation type.qualifiedName message) := by
  unfold candidate instantiate
  cases unusable with
  | failed failed => simp [failed]
  | brokeOff broke => simp [broke]
  | misnamed built other => simp [built, other]
  | malformed built named refused => simp [built, named, refused]

theorem candidate_eq_error {error : ConfigError} :
    type.candidate = .error error ↔
      ∃ message, type.Unusable message ∧ error = .instantiation type.qualifiedName message := by
  constructor
  · intro failed
    have only {message : String} (unusable : type.Unusable message) :
        ∃ message, type.Unusable message ∧ error = .instantiation type.qualifiedName message :=
      ⟨message, unusable, Except.error.inj (failed.symm.trans (candidate_of_unusable unusable))⟩
    cases construction : type.construction with
    | failed message => exact only (.failed construction)
    | brokeOff message => exact only (.brokeOff construction)
    | built exchange =>
      by_cases named : exchange.name = type.name
      · cases described : exchange.describe with
        | error fault => exact only (.malformed construction named described)
        | ok fields =>
          cases failed.symm.trans (candidate_eq_ok.2 ⟨construction, named, fields, described⟩)
      · exact only (.misnamed construction named)
  · rintro ⟨message, unusable, rfl⟩
    exact candidate_of_unusable unusable

theorem exists_candidate_iff :
    (∃ exchange, type.candidate = .ok exchange) ↔ ∀ message, ¬type.Unusable message := by
  constructor
  · rintro ⟨exchange, made⟩ message unusable
    cases made.symm.trans (candidate_of_unusable unusable)
  · intro usable
    cases result : type.candidate with
    | ok exchange => exact ⟨exchange, rfl⟩
    | error error =>
      obtain ⟨message, unusable, -⟩ := candidate_eq_error.1 result
      exact absurd unusable (usable message)

end ExchangeType

theorem Exchange.register_eq_error {exchange : Exchange} {error : ConfigError}
    {fields : List EditableField} (described : exchange.describe = .ok fields)
    (refused : exchange.register = .error error) : exchange.schema.api ≠ exchange.name ∧
      error = .ofSchemaFault exchange.name (.foreign exchange.schema.api) := by
  by_cases declared : exchange.schema.api = exchange.name
  · have done : exchange.register = .ok ⟨exchange, fields⟩ :=
      register_eq_ok.2 ⟨declared, rfl, described⟩
    cases refused.symm.trans done
  · unfold register at refused
    rw [if_pos declared] at refused
    cases refused
    exact ⟨declared, rfl⟩

namespace Manifest

/-- The content types and the signal types of a manifest can be added to those of a registry. -/
structure TypesFit (manifest : Manifest) (registry : Registry) : Prop where
  contentNames : ((registry.contentTypes ++ manifest.contentTypes).map (·.name)).Nodup
  signalNames : ((registry.signalTypes ++ manifest.signalTypes).map (·.name)).Nodup
  references : ∀ signal ∈ manifest.signalTypes, ∀ name ∈ signal.contentTypes,
    name ∈ (registry.contentTypes ++ manifest.contentTypes).map (·.name)

/-- The entry is the first that is of no use, and the types of the manifest give no reason to
refuse it before. -/
def FirstUnusable (manifest : Manifest) (registry : Registry) (type : ExchangeType)
    (message : String) : Prop :=
  manifest.TypesFit registry ∧ type.Unusable message ∧
    ∃ before after, manifest.exchangeTypes = before ++ type :: after ∧
      ∀ earlier ∈ before, ∀ message, ¬earlier.Unusable message

/-- Nothing is wrong but that the schema of an exchange is declared for another exchange. -/
structure Misdeclares (manifest : Manifest) (registry : Registry) : Prop where
  types : manifest.TypesFit registry
  usable : ∀ type ∈ manifest.exchangeTypes, ∀ message, ¬type.Unusable message
  exchangeNames :
    (registry.exchanges.map (·.name) ++ manifest.exchangeTypes.map (·.name)).Nodup
  foreign : ∃ type ∈ manifest.exchangeTypes, ∃ exchange,
    type.construction = .built exchange ∧ exchange.schema.api ≠ exchange.name

/-- How a manifest can be refused, in the order in which it is looked at. -/
inductive Refused (manifest : Manifest) (registry : Registry) : ConfigError → Prop where
  | repeatedType {kind name : String} (unfit : ¬manifest.TypesFit registry) :
      Refused manifest registry (.duplicateRegistration kind name)
  | unknownContent {signal content : String} (unfit : ¬manifest.TypesFit registry) :
      Refused manifest registry (.incompatibleSignalType signal content)
  | unusable {type : ExchangeType} {message : String}
      (first : manifest.FirstUnusable registry type message) :
      Refused manifest registry (.instantiation type.qualifiedName message)
  | repeatedExchange {kind name : String} (taken :
      ¬(registry.exchanges.map (·.name) ++ manifest.exchangeTypes.map (·.name)).Nodup) :
      Refused manifest registry (.duplicateRegistration kind name)
  | misdeclared {exchange : Exchange} (misdeclares : manifest.Misdeclares registry) :
      Refused manifest registry (.ofSchemaFault exchange.name (.foreign exchange.schema.api))

variable {manifest : Manifest} {registry : Registry} {error : ConfigError}

theorem typesFit_iff (consistent : registry.Consistent) : manifest.TypesFit registry ↔
    ∃ mapping, (registry.extend manifest []).types = .ok mapping := by
  simp only [Registry.types, TypeMapping.build_eq_ok]
  constructor
  · intro fit
    refine ⟨_, fit.contentNames, fit.signalNames, fun signal member name refers => ?_, rfl⟩
    rcases List.mem_append.1 member with old | new
    · have known := consistent.references signal old name refers
      simp only [Registry.extend, List.map_append]
      exact List.mem_append_left _ known
    · exact fit.references signal new name refers
  · rintro ⟨_, contents, signals, references, -⟩
    exact ⟨contents, signals, fun signal member =>
      references signal (List.mem_append_right _ member)⟩

theorem fit_eq_error : manifest.fit registry = .error error ↔
    (registry.extend manifest []).types = .error error ∨
      (∃ mapping, (registry.extend manifest []).types = .ok mapping) ∧
        (manifest.exchangeTypes.mapM (·.candidate) = .error error ∨
          ∃ built, manifest.exchangeTypes.mapM (·.candidate) = .ok built ∧
            ExchangeMapping.build (registry.exchanges ++ built) = .error error) := by
  unfold fit
  cases (registry.extend manifest []).types with
  | error first => simp
  | ok mapping =>
    cases manifest.exchangeTypes.mapM (·.candidate) with
    | error second => simp
    | ok built => cases result : ExchangeMapping.build (registry.exchanges ++ built) <;>
        simp [result]

theorem firstUnusable_iff (consistent : registry.Consistent) :
    (∃ type message, manifest.FirstUnusable registry type message ∧
      error = .instantiation type.qualifiedName message) ↔
      (∃ mapping, (registry.extend manifest []).types = .ok mapping) ∧
        manifest.exchangeTypes.mapM (·.candidate) = .error error := by
  simp only [← typesFit_iff consistent, Except.mapM_eq_error_iff,
    ExchangeType.exists_candidate_iff, ExchangeType.candidate_eq_error]
  constructor
  · rintro ⟨type, message, ⟨fit, unusable, before, after, split, usable⟩, same⟩
    exact ⟨fit, before, type, after, split, usable, message, unusable, same⟩
  · rintro ⟨fit, before, type, after, split, usable, message, unusable, same⟩
    exact ⟨type, message, ⟨fit, unusable, before, after, split, usable⟩, same⟩

theorem fit_of_firstUnusable (consistent : registry.Consistent) {type : ExchangeType}
    {message : String} (first : manifest.FirstUnusable registry type message) :
    manifest.fit registry = .error (.instantiation type.qualifiedName message) := by
  have both := (firstUnusable_iff consistent).1 ⟨type, message, first, rfl⟩
  exact fit_eq_error.2 (.inr ⟨both.1, .inl both.2⟩)

theorem refused_of_build (consistent : registry.Consistent) (types : manifest.TypesFit registry)
    {built : List Exchange} (candidates : manifest.exchangeTypes.mapM (·.candidate) = .ok built)
    (refused : ExchangeMapping.build (registry.exchanges ++ built) = .error error) :
    manifest.Refused registry error := by
  have names : (registry.exchanges ++ built).map (·.name) =
      registry.exchanges.map (·.name) ++ manifest.exchangeTypes.map (·.name) := by
    rw [List.map_append, ExchangeType.names_of_candidates candidates]
  unfold ExchangeMapping.build at refused
  rcases Except.bind_eq_error.1 refused with taken | ⟨_, free, refused⟩
  · obtain ⟨repeats, name, rfl⟩ := distinct_eq_error taken
    rw [names] at repeats
    exact .repeatedExchange repeats
  rcases Except.bind_eq_error.1 refused with failed | ⟨_, -, done⟩
  · obtain ⟨exchange, member, fails⟩ := Except.mapM_eq_error failed
    rcases List.mem_append.1 member with old | new
    · -- The exchanges of a consistent registry can all be registered.
      obtain ⟨registered, done⟩ := Exchange.registrable_iff.1 (consistent.registrable exchange old)
      cases done.symm.trans fails
    · obtain ⟨type, inManifest, made⟩ := Except.exists_of_mem_mapM candidates exchange new
      obtain ⟨construction, -, fields, described⟩ := ExchangeType.candidate_eq_ok.1 made
      obtain ⟨foreign, rfl⟩ := Exchange.register_eq_error described fails
      refine .misdeclared ⟨types, fun other also => ?_, ?_, type, inManifest, exchange,
        construction, foreign⟩
      · exact ExchangeType.exists_candidate_iff.1
          (Except.exists_mapM_eq_ok.1 ⟨built, candidates⟩ other also)
      · rw [← names]
        exact distinct_eq_ok.1 free
  · cases done

theorem refused_of_fit (consistent : registry.Consistent)
    (refused : manifest.fit registry = .error error) : manifest.Refused registry error := by
  rcases fit_eq_error.1 refused with types | ⟨types, candidates | ⟨built, candidates, exchanges⟩⟩
  · have unfit : ¬manifest.TypesFit registry := fun fit => by
      obtain ⟨mapping, fine⟩ := (typesFit_iff consistent).1 fit
      cases fine.symm.trans types
    rcases TypeMapping.build_eq_error types with ⟨kind, name, rfl⟩ | ⟨signal, content, rfl⟩
    · exact .repeatedType unfit
    · exact .unknownContent unfit
  · obtain ⟨type, message, first, rfl⟩ := (firstUnusable_iff consistent).2 ⟨types, candidates⟩
    exact .unusable first
  · exact refused_of_build consistent ((typesFit_iff consistent).2 types) candidates exchanges

end Manifest

/-- The error says what is wrong with the manifest: a name that is taken, a content type that is
unknown, or an entry that gives no exchange. -/
inductive ConfigError.IsRefusal : ConfigError → Prop where
  | duplicate (kind name : String) : IsRefusal (.duplicateRegistration kind name)
  | incompatible (signal content : String) : IsRefusal (.incompatibleSignalType signal content)
  | instantiation (api message : String) : IsRefusal (.instantiation api message)

theorem ConfigError.IsRefusal.exitCode {error : ConfigError} (refusal : error.IsRefusal) :
    error.exitCode = 2 := by
  cases refusal <;> rfl

/-- A refused manifest is blamed, and the user can mend it, exactly when it does more than to
declare a schema for another exchange. An entry is blamed exactly when it is the first that gives
no exchange with a well-formed schema. -/
theorem refusal_iff_not_misdeclares {registry : Registry} (consistent : registry.Consistent)
    {manifest : Manifest} {error : ConfigError}
    (refused : manifest.fit registry = .error error) :
    (error.IsRefusal ↔ ¬manifest.Misdeclares registry) ∧
      (error.exitCode = 2 ↔ ¬manifest.Misdeclares registry) ∧
      ∀ api message, error = .instantiation api message ↔
        ∃ type, manifest.FirstUnusable registry type message ∧ api = type.qualifiedName := by
  have blames (api message : String) : error = .instantiation api message ↔
      ∃ type, manifest.FirstUnusable registry type message ∧ api = type.qualifiedName := by
    constructor
    · rintro rfl
      cases Manifest.refused_of_fit consistent refused with
      | unusable first => exact ⟨_, first, rfl⟩
    · rintro ⟨type, first, rfl⟩
      exact Except.error.inj (refused.symm.trans (Manifest.fit_of_firstUnusable consistent first))
  -- Being blamed and an exit code of two go together, and the declaration alone gives another one.
  suffices alternatives : (error.IsRefusal ∧ ¬manifest.Misdeclares registry) ∨
      (error.exitCode = 1 ∧ manifest.Misdeclares registry) by
    rcases alternatives with ⟨refusal, declared⟩ | ⟨internal, misdeclares⟩
    · exact ⟨iff_of_true refusal declared, iff_of_true refusal.exitCode declared, blames⟩
    · have other : error.exitCode ≠ 2 := by simp [internal]
      exact ⟨iff_of_false (fun refusal => other refusal.exitCode) (not_not_intro misdeclares),
        iff_of_false other (not_not_intro misdeclares), blames⟩
  cases Manifest.refused_of_fit consistent refused with
  | repeatedType unfit => exact .inl ⟨.duplicate _ _, fun bad => unfit bad.types⟩
  | unknownContent unfit => exact .inl ⟨.incompatible _ _, fun bad => unfit bad.types⟩
  | unusable first =>
    refine .inl ⟨.instantiation _ _, fun bad => ?_⟩
    obtain ⟨-, unusable, before, after, split, -⟩ := first
    exact bad.usable _ (split ▸ by simp) _ unusable
  | repeatedExchange taken => exact .inl ⟨.duplicate _ _, fun bad => taken bad.exchangeNames⟩
  | misdeclared misdeclares => exact .inr ⟨rfl, misdeclares⟩

/-- An exchange whose schema is declared for another one. -/
def misdeclaredExchange : Exchange :=
  { name := "demo", qualifiedName := "m::Demo", schema := Schema.ofFields "other" [] }

def misdeclaredEntry : ExchangeType := ⟨"demo", "m::Demo", .built misdeclaredExchange⟩

/-- Two entries give no exchange. The first of them is blamed, and not the one before it, whose
schema is looked at later. -/
def brokenManifest : Manifest :=
  { module := "m"
    exchangeTypes := [misdeclaredEntry, ⟨"feed", "m::Feed", .brokeOff none⟩,
      ⟨"list", "m::List", .failed "no key"⟩] }

theorem brokenManifest_blamed : Registry.standard.Consistent ∧
    brokenManifest.fit Registry.standard =
      .error (.instantiation "m::Feed" "constructor panicked") ∧
    (ConfigError.instantiation "m::Feed" "constructor panicked").exitCode = 2 ∧
    ¬brokenManifest.Misdeclares Registry.standard ∧
    ∃ type, brokenManifest.FirstUnusable Registry.standard type "constructor panicked" ∧
      "m::Feed" = type.qualifiedName := by
  have refused : brokenManifest.fit Registry.standard =
      .error (.instantiation "m::Feed" "constructor panicked") := rfl
  obtain ⟨-, mends, blames⟩ := refusal_iff_not_misdeclares Registry.standard_consistent refused
  exact ⟨Registry.standard_consistent, refused, rfl, mends.1 rfl, (blames _ _).1 rfl⟩

/-- A manifest with nothing wrong but the declaration is refused by an error that neither blames its
entry nor counts as the user's. -/
theorem misdeclared_not_blamed : Registry.standard.Consistent ∧
    ∃ error, Manifest.fit ⟨"m", [], [], [misdeclaredEntry]⟩ Registry.standard = .error error ∧
      error = .schema "demo" "collab schema is declared for 'other'" ∧
      ¬error.IsRefusal ∧ error.exitCode = 1 :=
  ⟨Registry.standard_consistent, _, rfl, rfl, nofun, rfl⟩

end SignalExchange
