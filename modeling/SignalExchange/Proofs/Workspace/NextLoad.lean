import Mathlib.Data.Set.Finite.List
import Mathlib.Order.WellFounded
import SignalExchange.Proofs.Workspace.Loading

/-! A load before and after a module is added.

A module that fits the loaded ones is put into its place in byte order, where the next load holds it
against fewer modules, and the modules above it against more.
-/

set_option autoImplicit false

namespace SignalExchange

/-- What follows for each entry from the entries below it holds for all. -/
theorem below_induction {entries : List String} {P : String → Prop}
    (step : ∀ entry ∈ entries, (∀ other ∈ entries, other < entry → P other) → P entry) :
    ∀ entry ∈ entries, P entry := by
  have finite : Finite {entry // entry ∈ entries} := entries.finite_toSet.to_subtype
  intro entry member
  exact WellFounded.induction (C := fun entry : {entry // entry ∈ entries} => P entry.1)
    (wellFounded_lt (α := {entry // entry ∈ entries})) ⟨entry, member⟩
    fun entry below => step entry.1 entry.2 fun other member less => below ⟨other, member⟩ less

namespace Catalog

/-- Two modules have a name of one kind in common. -/
def Clash (catalog : Catalog) (first second : String) : Prop :=
  ∃ firstPart secondPart, catalog.part? first = some firstPart ∧
    catalog.part? second = some secondPart ∧ firstPart.Clash secondPart

theorem Known.mono {catalog : Catalog} {fewer more : String → Prop}
    (within : ∀ other, fewer other → more other) {part : Registry} {name : String}
    (known : catalog.Known fewer part name) : catalog.Known more part name := by
  rcases known with standard | own | ⟨other, otherPart, is, has, inOther⟩
  · exact .inl standard
  · exact .inr (.inl own)
  · exact .inr (.inr ⟨other, otherPart, within other is, has, inOther⟩)

end Catalog

namespace Assembly

variable {catalog : Catalog} {before after : List String} {module : String}

section

variable (ascendingBefore : before.Pairwise (· < ·)) (ascendingAfter : after.Pairwise (· < ·))
  (members : ∀ other, other ∈ after ↔ other = module ∨ other ∈ before)

include ascendingBefore ascendingAfter members

theorem loads_below_iff : ∀ other ∈ after, other < module →
    (Loads catalog after other ↔ Loads catalog before other) := by
  refine below_induction fun other member ih below => ?_
  have inBefore : other ∈ before :=
    ((members other).1 member).resolve_left (ne_of_lt below)
  have beside : (fun lower => lower < other ∧ Loads catalog after lower) =
      fun lower => lower < other ∧ Loads catalog before lower := by
    funext lower
    refine propext (and_congr_right fun less => ?_)
    by_cases known : lower ∈ after
    · exact ih lower known less (less.trans below)
    · have unknown : lower ∉ before := fun old => known ((members lower).2 (.inr old))
      exact iff_of_false (fun loads => known loads.1) (fun loads => unknown loads.1)
  rw [loads_iff ascendingAfter, loads_iff ascendingBefore, beside]
  simp [member, inBefore]

theorem loads_added_iff {part : Registry} (has : catalog.part? module = some part)
    (fits : catalog.FitsBeside (Loads catalog before) part) :
    Loads catalog after module ↔ ∀ signal ∈ part.signalTypes, ∀ name ∈ signal.contentTypes,
      catalog.Known (fun other => other < module ∧ Loads catalog before other) part name := by
  have beside : (fun other => other < module ∧ Loads catalog after other) =
      fun other => other < module ∧ Loads catalog before other := by
    funext other
    refine propext (and_congr_right fun less => ?_)
    by_cases known : other ∈ after
    · exact loads_below_iff ascendingBefore ascendingAfter members other known less
    · have unknown : other ∉ before := fun old => known ((members other).2 (.inr old))
      exact iff_of_false (fun loads => known loads.1) (fun loads => unknown loads.1)
  rw [loads_iff ascendingAfter, beside]
  constructor
  · rintro ⟨-, other, hasOther, fitsBelow⟩
    cases has.symm.trans hasOther
    exact fitsBelow.references
  · intro references
    exact ⟨(members module).2 (.inl rfl), part, has, fits.sound, fits.apart,
      fun other otherPart held => fits.apartFrom other otherPart held.2, references⟩

/-- All loaded modules and the new one are loaded next time exactly when the new one finds the
content types that it refers to, and no module that was skipped before now joins and clashes with a
loaded one above it. -/
theorem keeps_loaded_iff {part : Registry} (has : catalog.part? module = some part)
    (fits : catalog.FitsBeside (Loads catalog before) part) :
    (Loads catalog after module ∧ ∀ other, Loads catalog before other → Loads catalog after other) ↔
      (∀ signal ∈ part.signalTypes, ∀ name ∈ signal.contentTypes,
        catalog.Known (fun other => other < module ∧ Loads catalog before other) part name) ∧
      ∀ revived kept, Loads catalog after revived → ¬Loads catalog before revived →
        revived ≠ module → Loads catalog before kept → revived < kept →
        ¬catalog.Clash revived kept := by
  have added := loads_added_iff ascendingBefore ascendingAfter members has fits
  rw [added]
  refine and_congr_right fun references => ⟨?_, fun noClash => ?_⟩
  · rintro keeps revived kept loads - - keptBefore less ⟨_, keptPart, hasRevived, hasKept, clash⟩
    obtain ⟨-, other, hasOther, fitsKept⟩ :=
      (loads_iff ascendingAfter kept).1 (keeps kept keptBefore)
    cases hasKept.symm.trans hasOther
    exact fitsKept.apartFrom revived _ ⟨less, loads⟩ hasRevived clash
  -- From below: a loaded module finds what it refers to, and clashes with none below it now.
  have each : ∀ other ∈ after, Loads catalog before other → Loads catalog after other := by
    refine below_induction fun other member ih loadsBefore => ?_
    obtain ⟨-, otherPart, hasOther, fitsOther⟩ := (loads_iff ascendingBefore other).1 loadsBefore
    refine (loads_iff ascendingAfter other).2 ⟨member, otherPart, hasOther, fitsOther.sound,
      fitsOther.apart, ?_, ?_⟩
    · rintro lower lowerPart ⟨less, loads⟩ hasLower clash
      by_cases old : Loads catalog before lower
      · exact fitsOther.apartFrom lower lowerPart ⟨less, old⟩ hasLower clash
      · by_cases isModule : lower = module
        · subst isModule
          cases has.symm.trans hasLower
          exact fits.apartFrom other otherPart loadsBefore hasOther clash.symm
        · exact noClash lower other loads old isModule loadsBefore less
            ⟨lowerPart, otherPart, hasLower, hasOther, clash⟩
    · intro signal inPart name refers
      refine (fitsOther.references signal inPart name refers).mono fun lower held => ?_
      exact ⟨held.1, ih lower ((members lower).2 (.inr held.2.1)) held.1 held.2⟩
  exact fun other loads => each other ((members other).2 (.inr loads.1)) loads

end

end Assembly

end SignalExchange
