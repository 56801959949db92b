import SignalExchange.Proofs.Edit.Foreseen
import SignalExchange.Proofs.Program.Commands
import SignalExchange.Proofs.Workspace.Surfaces

/-! Edit commands end with errors that the user can make something of.

On a workspace that was loaded, and on records that were all written by the rules for records, an
edit of any exchange never comes to an error that stands for a defect of the program.
-/

set_option autoImplicit false

namespace SignalExchange

open Call Database

/-! What a load gives -/

theorem exchanges_of_load {catalog : Catalog} {database after : Database} {workspace : Workspace}
    {skipped : List Skipped}
    (loaded : outcome (extensionStore.load catalog) database = (.ok (workspace, skipped), after)) :
    ∃ exchanges, ExchangeMapping.build exchanges = .ok workspace.exchanges := by
  obtain ⟨modules, middle, -, ran⟩ := outcome_bind_eq_ok.1 loaded
  rw [outcome_ofExcept] at ran
  obtain ⟨types, -, rest⟩ := Except.bind_eq_ok.1 (Prod.mk.inj ran).1
  obtain ⟨mapping, built, same⟩ := Except.bind_eq_ok.1 rest
  cases same
  exact ⟨_, built⟩

namespace ExchangeMapping

variable {exchanges : List Exchange} {mapping : ExchangeMapping}
  (built : build exchanges = .ok mapping)

include built

theorem nodup_names : (mapping.registered.map (·.name)).Nodup := by
  have distinct := (build_eq_ok.1 built).1
  rw [← exchanges_of_build built, ExchangeMapping.exchanges, List.map_map] at distinct
  exact distinct

theorem find?_of_build {registered : RegisteredExchange}
    (member : registered ∈ mapping.registered) :
    mapping.find? registered.name = some registered :=
  find?_of_distinct (nodup_names built) member

theorem editableFields_of_build {registered : RegisteredExchange}
    (member : registered ∈ mapping.registered) :
    registered.schema.editableFields = .ok registered.fields :=
  Except.mapError_eq_ok.1 (described_of_build built registered member)

/-- An exchange that can be edited has a surface under its name. -/
theorem surface_of_editable {surfaces : List Surface} (made : mapping.surfaces = .ok surfaces)
    {registered : RegisteredExchange} (editable : registered ∈ mapping.editable) :
    surfaces.find? (fun surface => surface.api = registered.name) =
      some ⟨registered.name, registered.fields,
        Surface.commandFor registered.name registered.fields⟩ := by
  obtain ⟨-, rfl⟩ := surfaces_eq_ok.1 made
  have distinct : ((mapping.editable.map fun registered => (⟨registered.name, registered.fields,
      Surface.commandFor registered.name registered.fields⟩ : Surface)).map (·.api)).Nodup := by
    rw [List.map_map]
    exact (nodup_names built).sublist (List.filter_sublist.map _)
  exact find?_of_distinct distinct (List.mem_map_of_mem editable)

end ExchangeMapping

/-! Before the store is asked -/

namespace Surface

theorem editArgs_foreseen {surface : Surface} {found : Matches} {error : ConfigError}
    (failed : surface.editArgs found = .error error) : ¬error.Unforeseen := by
  unfold editArgs at failed
  split at failed
  · cases failed
    exact nofun
  · cases failed

end Surface

namespace EditArgs

variable {fields : List EditableField} {args : EditArgs} {error : ConfigError}

theorem readDocument_foreseen {text : String} (failed : readDocument text = .error error) :
    ¬error.Unforeseen := by
  unfold readDocument at failed
  split at failed
  · cases failed
    exact nofun
  · cases failed
  · cases failed
    exact nofun

theorem documentName_foreseen {entries : List (String × Json)}
    (failed : documentName entries = .error error) : ¬error.Unforeseen := by
  unfold documentName at failed
  split at failed
  · cases failed
  · cases failed
    exact nofun
  · cases failed
    exact nofun

theorem checkEntry_foreseen {key : String} {value : Json}
    (failed : checkEntry fields key value = .error error) : ¬error.Unforeseen := by
  unfold checkEntry at failed
  have mistyped {type : FieldType}
      (failed : (type.check value).mapError (ConfigError.ofMismatch key) = .error error) :
      ¬error.Unforeseen := by
    obtain ⟨mismatch, -, rfl⟩ := Except.mapError_eq_error.1 failed
    exact nofun
  split at failed
  · exact mistyped failed
  · split at failed
    · exact mistyped failed
    · split at failed
      · cases failed
        exact nofun
      · exact mistyped failed

theorem resolve_foreseen {api : String} (failed : args.resolve api fields = .error error) :
    ¬error.Unforeseen := by
  rcases Except.bind_eq_error.1 failed with base | ⟨_, -, done⟩
  · unfold EditArgs.base at base
    split at base
    · rcases Except.bind_eq_error.1 base with read | ⟨entries, -, base⟩
      · exact readDocument_foreseen read
      rcases Except.bind_eq_error.1 base with named | ⟨name, -, base⟩
      · exact documentName_foreseen named
      rcases Except.bind_eq_error.1 base with checked | ⟨_, -, done⟩
      · obtain ⟨entry, -, refused⟩ := Except.forM_eq_error checked
        exact checkEntry_foreseen refused
      · cases done
    · cases base
  · cases done

end EditArgs

namespace Program

open CommandM

theorem outcome_pure? {α : Type} (result : Except ConfigError α) (session : Session) :
    outcome (pure? result) session = (result.mapError .config, session) := by
  rw [pure?, outcome_ofExcept]

theorem editCollab_error_cases {workspace : Workspace} {surfaces : List Surface} {api : String}
    {registered : RegisteredExchange} {surface : Surface} {found : Matches}
    {session after : Session} {error : ProgramError}
    (there : workspace.exchanges.find? api = some registered)
    (offered : surfaces.find? (fun surface => surface.api = api) = some surface)
    (failed : outcome (editCollab workspace surfaces api found) session = (.error error, after)) :
    ∃ cause, error = .config cause ∧ (surface.editArgs found = .error cause ∨
      ∃ args, surface.editArgs found = .ok args ∧
        (args.resolve api surface.fields = .error cause ∨
          ∃ resolved left, args.resolve api surface.fields = .ok resolved ∧
            outcome (collabStore.apply registered.schema resolved) session.database =
              (.error cause, left))) := by
  rw [editCollab, there, offered] at failed
  simp only [outcome_bind, outcome_pure?, config, outcome_onDatabase] at failed
  cases given : surface.editArgs found with
  | error cause =>
    simp only [given] at failed
    cases failed
    exact ⟨cause, rfl, .inl rfl⟩
  | ok args =>
    simp only [given, Except.mapError_ok] at failed
    cases resolves : args.resolve api surface.fields with
    | error cause =>
      simp only [resolves] at failed
      cases failed
      exact ⟨cause, rfl, .inr ⟨args, rfl, .inl resolves⟩⟩
    | ok resolved =>
      simp only [resolves, Except.mapError_ok] at failed
      rcases ran : outcome (collabStore.apply registered.schema resolved) session.database with
        ⟨cause | done, left⟩
      · rw [ran] at failed
        cases failed
        exact ⟨cause, rfl, .inr ⟨args, rfl, .inr ⟨resolved, left, resolves, ran⟩⟩⟩
      · rw [ran] at failed
        cases failed

/-- Whatever the words of an edit command are matched to, the command never ends with an error that
stands for a defect of the program. A document without flags over it was checked as a whole when it
was resolved, so the store is never asked to take an invalid value of it. -/
theorem edit_foreseen {catalog : Catalog} {base left : Database} {workspace : Workspace}
    {skipped : List Skipped}
    (loaded : outcome (extensionStore.load catalog) base = (.ok (workspace, skipped), left))
    {surfaces : List Surface} (made : workspace.exchanges.surfaces = .ok surfaces)
    {registered : RegisteredExchange} (editable : registered ∈ workspace.exchanges.editable)
    {declared : String} {own : List Field}
    (common : registered.schema = Schema.ofFields declared own) {session : Session}
    (authored : Authored session.database) :
    ∃ surface, surfaces.find? (fun surface => surface.api = registered.name) = some surface ∧
      ∀ words found, surface.command.parse words = .ok found →
        (∀ error after,
          outcome (editCollab workspace surfaces registered.name found) session =
            (.error error, after) →
          ∃ cause, error = .config cause ∧ ¬cause.Unforeseen) ∧
        ∀ args resolved, surface.editArgs found = .ok args → args.isDocument = true →
          args.fields = [] → args.resolve registered.name surface.fields = .ok resolved →
          ∀ error after,
            outcome (collabStore.apply registered.schema resolved) session.database =
              (.error error, after) →
            ¬error.IsInvalidValue := by
  obtain ⟨exchanges, built⟩ := exchanges_of_load loaded
  have member := List.mem_of_mem_filter editable
  have there := ExchangeMapping.find?_of_build built member
  have described := ExchangeMapping.editableFields_of_build built member
  have offered := ExchangeMapping.surface_of_editable built made editable
  rw [common] at described
  refine ⟨_, offered, fun words found _ => ⟨fun error after failed => ?_, ?_⟩⟩
  · obtain ⟨cause, rfl, cases_⟩ := editCollab_error_cases there offered failed
    refine ⟨cause, rfl, ?_⟩
    -- The words are taken apart, the layers are resolved, and the edit is applied, in this order.
    rcases cases_ with given | ⟨args, -, refused | ⟨resolved, after, resolves, ran⟩⟩
    · exact Surface.editArgs_foreseen given
    · exact EditArgs.resolve_foreseen refused
    · rw [common] at ran
      exact apply_foreseen described (EditArgs.proper_of_resolve described resolves) authored ran
  · intro args resolved _ _ noFlags resolves error after ran
    rw [common] at ran
    exact apply_valid described (EditArgs.proper_of_resolve described resolves) authored ran
      (EditArgs.takes_of_document described noFlags resolves)

def freshSession : Session := ⟨Database.empty, .unreachable⟩

/-- An edit of a record that is not there says so. -/
theorem missing_record_foreseen : ∃ workspace surfaces surface found,
    outcome (extensionStore.load .standard) Database.empty =
      (.ok (workspace, []), Database.empty) ∧
    workspace.exchanges.surfaces = .ok surfaces ∧
    surfaces.find? (fun surface => surface.api = "local_file") = some surface ∧
    surface.command.parse ["c", "--filename=f"] = .ok found ∧
    outcome (editCollab workspace surfaces "local_file" found) freshSession =
      (.error (.config (.editTargetMissing "c")), freshSession) ∧
    ¬(ConfigError.editTargetMissing "c").Unforeseen := by
  have start : ∃ workspace surfaces registered surface found,
      outcome (extensionStore.load .standard) Database.empty =
        (.ok (workspace, []), Database.empty) ∧
      workspace.exchanges.surfaces = .ok surfaces ∧
      registered ∈ workspace.exchanges.editable ∧ registered.exchange = Standard.localFile ∧
      surfaces.find? (fun surface => surface.api = "local_file") = some surface ∧
      surface.command.parse ["c", "--filename=f"] = .ok found ∧
      outcome (editCollab workspace surfaces "local_file" found) freshSession =
        (.error (.config (.editTargetMissing "c")), freshSession) :=
    ⟨_, _, ⟨Standard.localFile, _⟩, _, _, rfl, rfl,
      List.mem_cons_of_mem _ (List.mem_cons_of_mem _ List.mem_cons_self), rfl, rfl, rfl, rfl⟩
  obtain ⟨workspace, surfaces, ⟨exchange, fields⟩, surface, found, loaded, made, editable, same,
    offered, parsed, failed⟩ := start
  cases same
  have authored : Authored freshSession.database := .start rfl
  obtain ⟨other, there, each⟩ := edit_foreseen loaded made editable rfl authored
  cases there.symm.trans offered
  obtain ⟨cause, same, foreseen⟩ := (each _ found parsed).1 _ _ failed
  cases same
  exact ⟨workspace, surfaces, surface, found, loaded, made, offered, parsed, failed, foreseen⟩

end Program

end SignalExchange
