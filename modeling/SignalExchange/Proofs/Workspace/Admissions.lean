import SignalExchange.Proofs.Text.ByteOrder
import SignalExchange.Proofs.Workspace.Extensions

/-! What a load makes of a list of modules.

Each module is admitted or skipped. An admitted one is held against the standard registry and the
admitted modules below it, and only admitted ones are in the registry that results.
-/

set_option autoImplicit false

namespace SignalExchange

/-- A module that was loaded, with what it adds to the registry. -/
structure Admission where
  module : String
  manifest : Manifest
  built : List Exchange

namespace Admission

def registry (admissions : List Admission) : Registry :=
  admissions.foldl (fun registry admission => registry.extend admission.manifest admission.built)
    Registry.standard

def below (module : String) (admissions : List Admission) : List Admission :=
  admissions.filter fun admission => admission.module < module

theorem registry_concat (admissions : List Admission) (admission : Admission) :
    registry (admissions ++ [admission]) =
      (registry admissions).extend admission.manifest admission.built := by
  simp [registry]

theorem below_concat (admissions : List Admission) {last : Admission} {module : String}
    (above : ¬last.module < module) :
    below module (admissions ++ [last]) = below module admissions := by
  rw [below, List.filter_append, List.filter_cons_of_neg (by simpa using above), List.filter_nil,
    List.append_nil, below]

theorem below_eq_self {admissions : List Admission} {module : String}
    (under : ∀ admission ∈ admissions, admission.module < module) :
    below module admissions = admissions := by
  simpa [below] using under

end Admission

/-- Each module of a list is admitted or skipped. It is admitted when it is known and fits the
registry of the admitted modules below it. -/
structure Admits (catalog : Catalog) (modules : List String) (admissions : List Admission)
    (skipped : List Skipped) : Prop where
  partition : (admissions.map (·.module) ++ skipped.map (·.module)).Perm modules
  admittedInOrder : (admissions.map (·.module)).Sublist modules
  skippedInOrder : (skipped.map (·.module)).Sublist modules
  fits : ∀ admission ∈ admissions, catalog.find? admission.module = some admission.manifest ∧
    admission.manifest.fit (Admission.registry (Admission.below admission.module admissions)) =
      .ok admission.built
  fails : ∀ skip ∈ skipped, catalog.load skip.module = .error skip.error ∨
    ∃ manifest, catalog.find? skip.module = some manifest ∧
      manifest.fit (Admission.registry (Admission.below skip.module admissions)) =
        .error skip.error

namespace Admits

variable {catalog : Catalog} {modules : List String} {admissions : List Admission}
  {skipped : List Skipped}

theorem nil : Admits catalog [] [] [] :=
  ⟨.nil, .slnil, .slnil, by simp, by simp⟩

theorem admission_mem (admits : Admits catalog modules admissions skipped) :
    ∀ admission ∈ admissions, admission.module ∈ modules := fun _ member =>
  admits.admittedInOrder.subset (List.mem_map_of_mem member)

theorem skip_mem (admits : Admits catalog modules admissions skipped) :
    ∀ skip ∈ skipped, skip.module ∈ modules := fun _ member =>
  admits.skippedInOrder.subset (List.mem_map_of_mem member)

section

variable {last : String} (admits : Admits catalog modules admissions skipped)
  (above : ∀ module ∈ modules, module < last)

include admits above

theorem below_last : Admission.below last admissions = admissions :=
  Admission.below_eq_self fun admission member => above _ (admits.admission_mem admission member)

theorem loads_last {manifest : Manifest} {built : List Exchange}
    (found : catalog.find? last = some manifest)
    (fits : manifest.fit (Admission.registry admissions) = .ok built) :
    Admits catalog (modules ++ [last]) (admissions ++ [⟨last, manifest, built⟩]) skipped := by
  refine ⟨?_, ?_, ?_, fun admission member => ?_, fun skip member => ?_⟩
  · rw [List.map_append, List.append_assoc]
    exact (List.perm_append_comm.append_left _).trans
      (by simpa using admits.partition.append_right [last])
  · rw [List.map_append]
    exact admits.admittedInOrder.append_right [last]
  · exact admits.skippedInOrder.trans (List.sublist_append_left _ _)
  · rcases List.mem_append.1 member with before | isLast
    · rw [Admission.below_concat _ (lt_asymm (above _ (admits.admission_mem _ before)))]
      exact admits.fits admission before
    · rw [List.mem_singleton] at isLast
      subst isLast
      rw [Admission.below_concat _ (lt_irrefl _), admits.below_last above]
      exact ⟨found, fits⟩
  · rw [Admission.below_concat _ (lt_asymm (above _ (admits.skip_mem _ member)))]
    exact admits.fails skip member

theorem skips_last {error : ConfigError}
    (failed : catalog.load last = .error error ∨ ∃ manifest, catalog.find? last = some manifest ∧
      manifest.fit (Admission.registry admissions) = .error error) :
    Admits catalog (modules ++ [last]) admissions (skipped ++ [⟨last, error⟩]) := by
  refine ⟨?_, ?_, ?_, admits.fits, fun skip member => ?_⟩
  · rw [List.map_append, ← List.append_assoc]
    exact admits.partition.append_right [last]
  · exact admits.admittedInOrder.trans (List.sublist_append_left _ _)
  · rw [List.map_append]
    exact admits.skippedInOrder.append_right [last]
  · rcases List.mem_append.1 member with before | isLast
    · exact admits.fails skip before
    · rw [List.mem_singleton] at isLast
      subst isLast
      rw [admits.below_last above]
      exact failed

end

theorem admitted_iff (admits : Admits catalog modules admissions skipped) (module : String) :
    module ∈ admissions.map (·.module) ↔ module ∈ modules ∧
      ∃ manifest built, catalog.find? module = some manifest ∧
        manifest.fit (Admission.registry (Admission.below module admissions)) = .ok built := by
  constructor
  · intro member
    obtain ⟨admission, inAdmissions, rfl⟩ := List.mem_map.1 member
    exact ⟨admits.admission_mem admission inAdmissions, _, _, admits.fits admission inAdmissions⟩
  · rintro ⟨inModules, manifest, built, found, fits⟩
    rcases List.mem_append.1 (admits.partition.mem_iff.2 inModules) with admitted | isSkipped
    · exact admitted
    · obtain ⟨skip, inSkipped, rfl⟩ := List.mem_map.1 isSkipped
      rcases admits.fails skip inSkipped with unknown | ⟨other, found', refused⟩
      · rw [Catalog.load, found] at unknown
        cases unknown
      · cases found.symm.trans found'
        cases fits.symm.trans refused

end Admits

namespace Assembly

variable {catalog : Catalog}

theorem ofModules_admits {modules : List String} (ascending : modules.Pairwise (· < ·)) :
    ∃ admissions, Admits catalog modules admissions (ofModules catalog modules).skipped ∧
      (ofModules catalog modules).registry = Admission.registry admissions ∧
      (ofModules catalog modules).extensions = admissions.map (·.manifest) := by
  -- By induction from the end: the last module is held against all that were admitted before it.
  induction modules using List.reverseRecOn with
  | nil => exact ⟨[], .nil, rfl, rfl⟩
  | append_singleton modules last ih =>
    obtain ⟨before, -, above⟩ := List.pairwise_append.1 ascending
    have above : ∀ module ∈ modules, module < last := fun module member =>
      above module member last (List.mem_singleton.2 rfl)
    obtain ⟨admissions, admits, registry, extensions⟩ := ih before
    rw [ofModules_concat, join, contribution, registry]
    cases found : catalog.find? last with
    | none =>
      have unknown : catalog.load last = .error (.unknownExtension last) := by
        rw [Catalog.load, found]
      rw [unknown]
      exact ⟨admissions, admits.skips_last above (.inl unknown), rfl, extensions⟩
    | some manifest =>
      have known : catalog.load last = .ok manifest := by rw [Catalog.load, found]
      rw [known]
      cases fits : manifest.fit (Admission.registry admissions) with
      | error error =>
        simp only [Except.ok_bind, fits, Except.error_bind]
        exact ⟨admissions, admits.skips_last above (.inr ⟨manifest, found, fits⟩), rfl, extensions⟩
      | ok built =>
        simp only [Except.ok_bind, fits, Except.pure_eq, extensions]
        exact ⟨_, admits.loads_last above found fits,
          (Admission.registry_concat admissions ⟨last, manifest, built⟩).symm, by simp⟩

end Assembly

open Call Database

theorem Workspace.extensions_of_assemble {catalog : Catalog} {modules : List String}
    {workspace : Workspace} {skipped : List Skipped}
    (done : assemble catalog modules = .ok (workspace, skipped)) :
    workspace.extensions = (Assembly.ofModules catalog modules).extensions := by
  obtain ⟨_, -, done⟩ := Except.bind_eq_ok.1 done
  obtain ⟨_, -, same⟩ := Except.bind_eq_ok.1 done
  cases same
  rfl

/-- A readable list of modules is always loaded, and stays as it is. The registry is that of the
admitted modules, and it is consistent. -/
theorem load_admits {database : Database} {rows : Table AddedAt}
    (there : database.extensions = some rows) (ascending : Ascending rows) (catalog : Catalog) :
    ∃ workspace skipped admissions,
      outcome (extensionStore.load catalog) database = (.ok (workspace, skipped), database) ∧
      (rows.map fun row => textBytes row.1).Pairwise (· < ·) ∧
      Admits catalog (rows.map (·.1)) admissions skipped ∧
      (∀ module, module ∈ admissions.map (·.module) ↔ module ∈ rows.map (·.1) ∧
        ∃ manifest built, catalog.find? module = some manifest ∧
          manifest.fit (Admission.registry (Admission.below module admissions)) = .ok built) ∧
      workspace.extensions = admissions.map (·.manifest) ∧
      workspace.registry = Admission.registry admissions ∧ workspace.registry.Consistent ∧
      (workspace.exchanges.registered.map (·.name)).Nodup ∧
      ∀ registered ∈ workspace.exchanges.registered, registered.schema.api = registered.name ∧
        registered.exchange.describe = .ok registered.fields := by
  have below := modules_ascending ascending
  have distinct : (rows.map (·.1)).Nodup := below.imp ne_of_lt
  obtain ⟨workspace, done, assembled⟩ := Workspace.assemble_eq_ok catalog distinct
  obtain ⟨admissions, admits, registry, extensions⟩ := @Assembly.ofModules_admits catalog _ below
  have consistent := (@Assembly.gathers_ofModules catalog _ distinct).consistent
  rw [← assembled.sameRegistry] at consistent registry
  have exchanges : workspace.exchanges.registered.map (·.exchange) = workspace.registry.exchanges :=
    rfl
  refine ⟨workspace, _, admissions, by rw [outcome_load there, done],
    List.pairwise_map.2 (ascending.imp (textBytes_lt_iff _ _).2), admits, admits.admitted_iff,
    (Workspace.extensions_of_assemble done).trans extensions, registry, consistent, ?_,
    fun registered member => ?_⟩
  · have names := consistent.exchangeNames
    rw [← exchanges, List.map_map] at names
    exact names
  · have member' := List.mem_map_of_mem (f := (·.exchange)) member
    rw [exchanges] at member'
    exact ⟨(consistent.registrable _ member').1,
      ExchangeMapping.described_of_build assembled.exchanges registered member⟩

/-- Of two modules the first refers to a content type of the second, so only the second is
admitted. -/
theorem clips_admitted : ∃ workspace skipped admissions,
    outcome (extensionStore.load clipCatalog) withClipHashes =
      (.ok (workspace, skipped), withClipHashes) ∧
    skipped = [⟨"a", .incompatibleSignalType "clip_md5" "clip"⟩] ∧
    workspace.extensions = [clips] ∧ Admits clipCatalog ["a", "b"] admissions skipped ∧
    admissions.map (·.manifest) = [clips] ∧
    workspace.registry = Admission.registry admissions ∧ workspace.registry.Consistent := by
  have there : withClipHashes.extensions = some [("a", .recorded), ("b", .recorded)] := rfl
  have ascending : Ascending [("a", AddedAt.recorded), ("b", AddedAt.recorded)] :=
    List.pairwise_pair.2 (by decide)
  have ran : ∃ workspace, outcome (extensionStore.load clipCatalog) withClipHashes =
      (.ok (workspace, [⟨"a", .incompatibleSignalType "clip_md5" "clip"⟩]), withClipHashes) ∧
      workspace.extensions = [clips] := ⟨_, rfl, rfl⟩
  obtain ⟨workspace, done, loaded⟩ := ran
  obtain ⟨other, skipped, admissions, also, -, admits, -, extensions, registry, consistent, -⟩ :=
    load_admits there ascending clipCatalog
  cases done.symm.trans also
  exact ⟨workspace, _, admissions, done, rfl, loaded, admits, extensions.symm.trans loaded,
    registry, consistent⟩

end SignalExchange
