import Mathlib.Data.List.Induction
import SignalExchange.Proofs.Ascending
import SignalExchange.Proofs.Registry.Parts
import SignalExchange.Workspace

/-! Which modules a load takes.

The modules are joined in the order of the list. In an ascending list each is therefore held
against the loaded modules below it, and against no others.
-/

set_option autoImplicit false

namespace SignalExchange

namespace Assembly

variable {catalog : Catalog}

def ofModules (catalog : Catalog) (modules : List String) : Assembly :=
  modules.foldl (join catalog) .start

/-- The module is in the list and was not skipped. -/
def Loads (catalog : Catalog) (modules : List String) (module : String) : Prop :=
  module ∈ modules ∧ module ∉ (ofModules catalog modules).skipped.map (·.module)

theorem ofModules_concat (modules : List String) (module : String) :
    ofModules catalog (modules ++ [module]) = (ofModules catalog modules).join catalog module := by
  simp [ofModules]

theorem contribution_eq_ok_fit {assembly : Assembly} {module : String} {manifest : Manifest}
    {built : List Exchange} :
    assembly.contribution catalog module = .ok (manifest, built) ↔
      catalog.find? module = some manifest ∧ manifest.fit assembly.registry = .ok built := by
  unfold contribution Catalog.load
  cases found : catalog.find? module with
  | none => simp
  | some other =>
    rw [Except.ok_bind, Except.bind_eq_ok]
    constructor
    · rintro ⟨_, fits, same⟩
      cases same
      exact ⟨rfl, fits⟩
    · rintro ⟨same, fits⟩
      cases same
      exact ⟨built, fits, rfl⟩

theorem contribution_eq_ok {assembly : Assembly} {module : String} {manifest : Manifest}
    {built : List Exchange} :
    assembly.contribution catalog module = .ok (manifest, built) ↔
      catalog.find? module = some manifest ∧
        manifest.exchangeTypes.mapM (·.candidate) = .ok built ∧
        (assembly.registry.extend manifest built).Consistent := by
  rw [contribution_eq_ok_fit, Manifest.fit_eq_ok]

variable {assembly : Assembly} {loaded : String → Prop}

theorem exists_contribution_iff (gathers : catalog.Gathers loaded assembly.registry)
    (module : String) :
    (∃ added, assembly.contribution catalog module = .ok added) ↔ catalog.Fits loaded module := by
  constructor
  · rintro ⟨⟨manifest, built⟩, done⟩
    obtain ⟨found, candidates, consistent⟩ := contribution_eq_ok.1 done
    exact ⟨_, Catalog.part?_eq_some.2 ⟨manifest, built, found, candidates, rfl⟩,
      gathers.extend_consistent_iff.1 consistent⟩
  · rintro ⟨part, has, fits⟩
    obtain ⟨manifest, built, found, candidates, rfl⟩ := Catalog.part?_eq_some.1 has
    exact ⟨(manifest, built), contribution_eq_ok.2 ⟨found, candidates,
      gathers.extend_consistent_iff.2 fits⟩⟩

theorem join_of_fits (gathers : catalog.Gathers loaded assembly.registry) {module : String}
    (fits : catalog.Fits loaded module) :
    (assembly.join catalog module).skipped = assembly.skipped ∧
      catalog.Gathers (fun other => loaded other ∨ other = module)
        (assembly.join catalog module).registry := by
  obtain ⟨⟨manifest, built⟩, done⟩ := (exists_contribution_iff gathers module).2 fits
  obtain ⟨found, candidates, consistent⟩ := contribution_eq_ok.1 done
  have has := Catalog.part?_eq_some.2 ⟨manifest, built, found, candidates, rfl⟩
  rw [join, done]
  exact ⟨rfl, gathers.extend has consistent⟩

theorem join_of_not_fits (gathers : catalog.Gathers loaded assembly.registry) {module : String}
    (fits : ¬catalog.Fits loaded module) :
    (∃ error, (assembly.join catalog module).skipped = assembly.skipped ++ [⟨module, error⟩]) ∧
      (assembly.join catalog module).registry = assembly.registry := by
  rw [join]
  cases contribution : assembly.contribution catalog module with
  | ok added => exact absurd ((exists_contribution_iff gathers module).1 ⟨added, contribution⟩) fits
  | error error => exact ⟨⟨error, rfl⟩, rfl⟩

theorem skipped_subset (modules : List String) :
    ∀ module ∈ (ofModules catalog modules).skipped.map (·.module), module ∈ modules := by
  induction modules using List.reverseRecOn with
  | nil => exact fun _ member => nomatch member
  | append_singleton modules last ih =>
    rw [ofModules_concat, join]
    intro module member
    split at member
    · exact List.mem_append_left _ (ih module member)
    · rw [List.map_append, List.mem_append, List.map_singleton, List.mem_singleton] at member
      rcases member with before | rfl
      · exact List.mem_append_left _ (ih module before)
      · exact List.mem_append_right _ (List.mem_singleton.2 rfl)

theorem not_skipped_of_fresh {modules : List String} {module : String}
    (fresh : module ∉ modules) : module ∉ (ofModules catalog modules).skipped.map (·.module) :=
  fun member => fresh (skipped_subset modules module member)

theorem loads_concat_iff {modules : List String} {last : String} (fresh : last ∉ modules)
    (gathers : catalog.Gathers (Loads catalog modules) (ofModules catalog modules).registry)
    (module : String) :
    Loads catalog (modules ++ [last]) module ↔ Loads catalog modules module ∨
      module = last ∧ catalog.Fits (Loads catalog modules) last := by
  have notSkipped := @not_skipped_of_fresh catalog _ _ fresh
  unfold Loads at *
  rw [ofModules_concat, List.mem_append, List.mem_singleton]
  -- The last module changes nothing for those before it, whether it joins or is skipped.
  by_cases fits : catalog.Fits (Loads catalog modules) last
  · rw [(join_of_fits gathers fits).1]
    constructor
    · rintro ⟨member | rfl, kept⟩
      · exact .inl ⟨member, kept⟩
      · exact .inr ⟨rfl, fits⟩
    · rintro (⟨member, kept⟩ | ⟨rfl, -⟩)
      · exact ⟨.inl member, kept⟩
      · exact ⟨.inr rfl, notSkipped⟩
  · obtain ⟨⟨error, skipped⟩, -⟩ := join_of_not_fits gathers fits
    rw [skipped, List.map_append, List.mem_append, List.map_singleton, List.mem_singleton]
    constructor
    · rintro ⟨member | rfl, kept⟩
      · exact .inl ⟨member, fun skipped => kept (.inl skipped)⟩
      · exact absurd (.inr rfl) kept
    · rintro (⟨member, kept⟩ | ⟨-, fits'⟩)
      · refine ⟨.inl member, ?_⟩
        rintro (skipped | rfl)
        · exact kept skipped
        · exact fresh member
      · exact absurd fits' fits

theorem gathers_ofModules {modules : List String} (distinct : modules.Nodup) :
    catalog.Gathers (Loads catalog modules) (ofModules catalog modules).registry := by
  -- Modules join at the end of the list, so the induction takes them from there. Were one in the
  -- list twice, its second joining would be skipped although it is loaded.
  induction modules using List.reverseRecOn with
  | nil =>
    have none : Loads catalog [] = fun _ => False := by
      funext module
      exact eq_false fun loads => nomatch loads.1
    rw [none]
    exact Catalog.gathers_standard
  | append_singleton modules last ih =>
    have gathers := ih (List.Nodup.of_append_left distinct)
    have fresh : last ∉ modules := fun member =>
      List.disjoint_of_nodup_append distinct member (List.mem_singleton.2 rfl)
    have loads : Loads catalog (modules ++ [last]) = fun module => Loads catalog modules module ∨
        module = last ∧ catalog.Fits (Loads catalog modules) last := by
      funext module
      exact propext (loads_concat_iff fresh gathers module)
    rw [loads, ofModules_concat]
    by_cases fits : catalog.Fits (Loads catalog modules) last
    · simpa [fits] using (join_of_fits gathers fits).2
    · rw [(join_of_not_fits gathers fits).2]
      simpa [fits] using gathers

theorem loads_iff {modules : List String} (ascending : modules.Pairwise (· < ·))
    (module : String) :
    Loads catalog modules module ↔ module ∈ modules ∧
      catalog.Fits (fun other => other < module ∧ Loads catalog modules other) module := by
  induction modules using List.reverseRecOn with
  | nil => simp [Loads]
  | append_singleton modules last ih =>
    obtain ⟨before, -, above⟩ := List.pairwise_append.1 ascending
    have below : ∀ other ∈ modules, other < last := fun other member =>
      above other member last (List.mem_singleton.2 rfl)
    have fresh : last ∉ modules := fun member => lt_irrefl last (below last member)
    have gathers := @gathers_ofModules catalog _ (before.imp ne_of_lt)
    have concat := loads_concat_iff fresh gathers
    by_cases isLast : module = last
    · subst isLast
      have beside : (fun other => other < module ∧ Loads catalog (modules ++ [module]) other) =
          Loads catalog modules := by
        funext other
        rw [concat]
        refine propext ⟨?_, fun loads => ⟨below other loads.1, .inl loads⟩⟩
        rintro ⟨less, loads | ⟨rfl, -⟩⟩
        · exact loads
        · exact absurd less (lt_irrefl other)
      have notBefore : ¬Loads catalog modules module := fun loads => fresh loads.1
      rw [beside, concat]
      simp [notBefore]
    · have same : Loads catalog (modules ++ [last]) module ↔ Loads catalog modules module := by
        rw [concat]
        simp [isLast]
      rw [same, ih before, List.mem_append, List.mem_singleton]
      simp only [isLast, or_false]
      refine and_congr_right fun member => ?_
      -- The last module is above this one, so it is not among those that this one is held against.
      have beside : (fun other => other < module ∧ Loads catalog (modules ++ [last]) other) =
          fun other => other < module ∧ Loads catalog modules other := by
        funext other
        rw [concat]
        refine propext ⟨?_, fun held => ⟨held.1, .inl held.2⟩⟩
        rintro ⟨less, loads | ⟨rfl, -⟩⟩
        · exact ⟨less, loads⟩
        · exact absurd less (lt_asymm (below module member))
      rw [beside]

end Assembly

end SignalExchange
