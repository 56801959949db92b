import SignalExchange.Proofs.Registry.Consistency

/-! What a module adds to a registry.

The part of a module is itself a registry. Whether a registry stays consistent with a part depends
only on the names in both, not on their order.
-/

set_option autoImplicit false

namespace SignalExchange

inductive Kind where
  | content
  | signal
  | exchange

namespace Registry

def names : Kind → Registry → List String
  | .content, registry => registry.contentTypes.map (·.name)
  | .signal, registry => registry.signalTypes.map (·.name)
  | .exchange, registry => registry.exchanges.map (·.name)

/-- Two registries have a name of one kind in common. -/
def Clash (first second : Registry) : Prop :=
  ∃ kind name, name ∈ first.names kind ∧ name ∈ second.names kind

theorem Clash.symm {first second : Registry} (clash : first.Clash second) :
    second.Clash first := by
  obtain ⟨kind, name, inFirst, inSecond⟩ := clash
  exact ⟨kind, name, inSecond, inFirst⟩

/-- No name is repeated, and every exchange can be registered. -/
structure Sound (part : Registry) : Prop where
  names : ∀ kind, (part.names kind).Nodup
  registrable : ∀ exchange ∈ part.exchanges, exchange.Registrable

theorem Consistent.nodup {registry : Registry} (consistent : registry.Consistent) (kind : Kind) :
    (registry.names kind).Nodup := by
  cases kind with
  | content => exact consistent.contentNames
  | signal => exact consistent.signalNames
  | exchange => exact consistent.exchangeNames

end Registry

/-- What a manifest adds with the exchanges built for it. -/
def Manifest.part (manifest : Manifest) (built : List Exchange) : Registry :=
  ⟨manifest.contentTypes, manifest.signalTypes, built⟩

namespace Registry

variable {registry : Registry} {manifest : Manifest} {built : List Exchange}

theorem names_extend (kind : Kind) : (registry.extend manifest built).names kind =
    registry.names kind ++ (manifest.part built).names kind := by
  cases kind <;> simp [names, extend, Manifest.part]

theorem mem_names_extend {kind : Kind} {name : String} :
    name ∈ (registry.extend manifest built).names kind ↔
      name ∈ registry.names kind ∨ name ∈ (manifest.part built).names kind := by
  rw [names_extend, List.mem_append]

theorem nodup_names_extend (consistent : registry.Consistent) (kind : Kind) :
    ((registry.extend manifest built).names kind).Nodup ↔
      ((manifest.part built).names kind).Nodup ∧
        ∀ name ∈ registry.names kind, name ∉ (manifest.part built).names kind := by
  rw [names_extend, List.nodup_append']
  constructor
  · rintro ⟨-, inPart, apart⟩
    exact ⟨inPart, fun _ inRegistry again => apart inRegistry again⟩
  · rintro ⟨inPart, apart⟩
    exact ⟨consistent.nodup kind, inPart, fun name inRegistry again => apart name inRegistry again⟩

theorem extend_consistent_iff (consistent : registry.Consistent) :
    (registry.extend manifest built).Consistent ↔
      (manifest.part built).Sound ∧ ¬registry.Clash (manifest.part built) ∧
        ∀ signal ∈ manifest.signalTypes, ∀ name ∈ signal.contentTypes,
          name ∈ registry.names .content ∨ name ∈ (manifest.part built).names .content := by
  constructor
  · intro extended
    have names (kind : Kind) := (nodup_names_extend consistent kind).1 (extended.nodup kind)
    refine ⟨⟨fun kind => (names kind).1, fun exchange member => ?_⟩, ?_,
      fun signal member name refers => ?_⟩
    · exact extended.registrable exchange (List.mem_append_right _ member)
    · rintro ⟨kind, name, inRegistry, inPart⟩
      exact (names kind).2 name inRegistry inPart
    · have known := extended.references signal (List.mem_append_right _ member) name refers
      exact mem_names_extend.1 known
  · rintro ⟨sound, apart, references⟩
    have names (kind : Kind) : ((registry.extend manifest built).names kind).Nodup :=
      (nodup_names_extend consistent kind).2 ⟨sound.names kind, fun name inRegistry inPart =>
        apart ⟨kind, name, inRegistry, inPart⟩⟩
    -- References that were good stay good, because no content type is lost.
    have known : ∀ signal ∈ registry.signalTypes ++ manifest.signalTypes,
        ∀ name ∈ signal.contentTypes,
          name ∈ (registry.extend manifest built).names .content := by
      intro signal member name refers
      rcases List.mem_append.1 member with old | new
      · exact mem_names_extend.2 (.inl (consistent.references signal old name refers))
      · exact mem_names_extend.2 (references signal new name refers)
    refine ⟨names .content, names .signal, known, names .exchange, fun exchange member => ?_⟩
    rcases List.mem_append.1 member with old | new
    · exact consistent.registrable exchange old
    · exact sound.registrable exchange new

end Registry

/-! Modules beside other modules -/

namespace Catalog

/-- What a module of the catalog adds to any registry, if all its candidates can be built. -/
def part? (catalog : Catalog) (module : String) : Option Registry :=
  match catalog.find? module with
  | none => none
  | some manifest =>
    match manifest.exchangeTypes.mapM (·.candidate) with
    | .ok built => some (manifest.part built)
    | .error _ => none

theorem part?_eq_some {catalog : Catalog} {module : String} {part : Registry} :
    catalog.part? module = some part ↔ ∃ manifest built, catalog.find? module = some manifest ∧
      manifest.exchangeTypes.mapM (·.candidate) = .ok built ∧ manifest.part built = part := by
  unfold part?
  cases found : catalog.find? module with
  | none => simp
  | some manifest =>
    cases candidates : manifest.exchangeTypes.mapM (·.candidate) with
    | error error => simp [candidates]
    | ok built => simp [candidates]

variable (catalog : Catalog) (loaded : String → Prop)

/-- A content type is one of the standard ones, of the part itself, or of a loaded module. -/
def Known (part : Registry) (name : String) : Prop :=
  name ∈ Registry.standard.names .content ∨ name ∈ part.names .content ∨
    ∃ other otherPart, loaded other ∧ catalog.part? other = some otherPart ∧
      name ∈ otherPart.names .content

/-- The part can be joined to the standard registry and the loaded modules. -/
structure FitsBeside (part : Registry) : Prop where
  sound : part.Sound
  apart : ¬Registry.standard.Clash part
  apartFrom : ∀ other otherPart, loaded other → catalog.part? other = some otherPart →
    ¬otherPart.Clash part
  references : ∀ signal ∈ part.signalTypes, ∀ name ∈ signal.contentTypes,
    catalog.Known loaded part name

/-- The module has a part that fits. -/
def Fits (module : String) : Prop :=
  ∃ part, catalog.part? module = some part ∧ catalog.FitsBeside loaded part

/-- The registry is the standard one with the parts of the loaded modules. -/
structure Gathers (registry : Registry) : Prop where
  consistent : registry.Consistent
  names : ∀ kind name, name ∈ registry.names kind ↔ name ∈ Registry.standard.names kind ∨
    ∃ other part, loaded other ∧ catalog.part? other = some part ∧ name ∈ part.names kind
  exchanges : ∀ exchange, exchange ∈ registry.exchanges ↔
    exchange ∈ Registry.standard.exchanges ∨
      ∃ other part, loaded other ∧ catalog.part? other = some part ∧ exchange ∈ part.exchanges

variable {catalog loaded} {registry : Registry}

theorem Gathers.clash_iff (gathers : catalog.Gathers loaded registry) {part : Registry} :
    registry.Clash part ↔ Registry.standard.Clash part ∨
      ∃ other otherPart, loaded other ∧ catalog.part? other = some otherPart ∧
        otherPart.Clash part := by
  constructor
  · rintro ⟨kind, name, inRegistry, inPart⟩
    rcases (gathers.names kind name).1 inRegistry with
      standard | ⟨other, otherPart, is, has, inOther⟩
    · exact .inl ⟨kind, name, standard, inPart⟩
    · exact .inr ⟨other, otherPart, is, has, kind, name, inOther, inPart⟩
  · rintro (⟨kind, name, standard, inPart⟩ |
      ⟨other, otherPart, is, has, kind, name, inOther, inPart⟩)
    · exact ⟨kind, name, (gathers.names kind name).2 (.inl standard), inPart⟩
    · have inRegistry :=
        (gathers.names kind name).2 (.inr ⟨other, otherPart, is, has, inOther⟩)
      exact ⟨kind, name, inRegistry, inPart⟩

theorem Gathers.known_iff (gathers : catalog.Gathers loaded registry) {part : Registry}
    {name : String} : catalog.Known loaded part name ↔
      name ∈ registry.names .content ∨ name ∈ part.names .content := by
  rw [Known, gathers.names, or_assoc]
  exact or_congr_right or_comm

/-- A registry stays consistent with a part exactly when the part fits beside the modules that the
registry was gathered from. -/
theorem Gathers.extend_consistent_iff (gathers : catalog.Gathers loaded registry)
    {manifest : Manifest} {built : List Exchange} :
    (registry.extend manifest built).Consistent ↔
      catalog.FitsBeside loaded (manifest.part built) := by
  rw [Registry.extend_consistent_iff gathers.consistent, gathers.clash_iff]
  simp only [← gathers.known_iff]
  constructor
  · rintro ⟨sound, apart, references⟩
    exact ⟨sound, fun clash => apart (.inl clash), fun other otherPart is has clash =>
      apart (.inr ⟨other, otherPart, is, has, clash⟩), references⟩
  · intro fits
    refine ⟨fits.sound, ?_, fits.references⟩
    rintro (clash | ⟨other, otherPart, is, has, clash⟩)
    · exact fits.apart clash
    · exact fits.apartFrom other otherPart is has clash

theorem gathers_standard : catalog.Gathers (fun _ => False) Registry.standard :=
  ⟨Registry.standard_consistent, by simp, by simp⟩

theorem Gathers.extend (gathers : catalog.Gathers loaded registry) {module : String}
    {manifest : Manifest} {built : List Exchange}
    (has : catalog.part? module = some (manifest.part built))
    (consistent : (registry.extend manifest built).Consistent) :
    catalog.Gathers (fun other => loaded other ∨ other = module)
      (registry.extend manifest built) := by
  -- What some loaded module has is had by one of those before or by the new one.
  have either {P : Registry → Prop} : (∃ other part, (loaded other ∨ other = module) ∧
      catalog.part? other = some part ∧ P part) ↔
      (∃ other part, loaded other ∧ catalog.part? other = some part ∧ P part) ∨
        P (manifest.part built) := by
    constructor
    · rintro ⟨other, part, is | rfl, hasOther, holds⟩
      · exact .inl ⟨other, part, is, hasOther, holds⟩
      · exact .inr (Option.some.inj (has.symm.trans hasOther) ▸ holds)
    · rintro (⟨other, part, is, hasOther, holds⟩ | holds)
      · exact ⟨other, part, .inl is, hasOther, holds⟩
      · exact ⟨module, _, .inr rfl, has, holds⟩
  refine ⟨consistent, fun kind name => ?_, fun exchange => ?_⟩
  · rw [Registry.mem_names_extend, gathers.names, either (P := fun part => name ∈ part.names kind),
      or_assoc]
  · have member : exchange ∈ (registry.extend manifest built).exchanges ↔
        exchange ∈ registry.exchanges ∨ exchange ∈ (manifest.part built).exchanges :=
      List.mem_append
    rw [member, gathers.exchanges, either (P := fun part => exchange ∈ part.exchanges), or_assoc]

end Catalog

end SignalExchange
