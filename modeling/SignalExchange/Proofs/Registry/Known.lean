import SignalExchange.Proofs.Database.Conforming
import SignalExchange.Proofs.Registry.Consistency
import SignalExchange.Registry.Standard

/-! The exchanges that a workspace of the program can have. -/

set_option autoImplicit false

namespace SignalExchange

namespace Registry

/-- The standard exchanges, and the one that a module of the program adds. -/
def known : List Exchange := Standard.exchanges ++ [Catalog.hashlistExchange]

/-- The fields that a known exchange adds to the common ones. -/
def ownFields? (api : String) : Option (List Field) :=
  (known.find? fun exchange => exchange.name = api).map (·.schema.ownFields)

theorem schema_of_known : ∀ exchange ∈ known,
    exchange.schema = Schema.ofFields exchange.name exchange.schema.ownFields ∧
      ownFields? exchange.name = some exchange.schema.ownFields := by
  simp only [known, Standard.exchanges, List.cons_append, List.nil_append, List.forall_mem_cons]
  exact ⟨⟨rfl, rfl⟩, ⟨rfl, rfl⟩, ⟨rfl, rfl⟩, ⟨rfl, rfl⟩, ⟨rfl, rfl⟩, List.forall_mem_nil _⟩

variable {api : String} {own : List Field}

theorem exists_of_ownFields? (declared : ownFields? api = some own) :
    ∃ exchange ∈ known, exchange.name = api ∧ exchange.schema.ownFields = own := by
  obtain ⟨exchange, found, same⟩ := Option.map_eq_some_iff.1 declared
  have named := List.find?_some found
  exact ⟨exchange, List.mem_of_find?_eq_some found, of_decide_eq_true named, same⟩

theorem accepted_of_known (declared : ownFields? api = some own) :
    ∃ fields, (Schema.ofFields api own).editableFields = .ok fields := by
  have each : ∀ exchange ∈ known, ∃ fields, exchange.schema.editableFields = .ok fields := by
    simp only [known, Standard.exchanges, List.cons_append, List.nil_append, List.forall_mem_cons]
    exact ⟨⟨_, rfl⟩, ⟨_, rfl⟩, ⟨_, rfl⟩, ⟨_, rfl⟩, ⟨_, rfl⟩, List.forall_mem_nil _⟩
  obtain ⟨exchange, member, rfl, rfl⟩ := exists_of_ownFields? declared
  rw [← (schema_of_known exchange member).1]
  exact each exchange member

theorem storable_of_known (declared : ownFields? api = some own) : Storable own := by
  have each : ∀ exchange ∈ known, Storable exchange.schema.ownFields := by decide
  obtain ⟨exchange, member, -, rfl⟩ := exists_of_ownFields? declared
  exact each exchange member

/-! Rules for records under the schema of a known exchange -/

section

variable {exchange : Exchange} (member : exchange ∈ known)

include member

theorem maintains_apply (edit : ResolvedEdit) : Call.Maintains (Database.Conforming ownFields?)
    (Database.collabStore.apply exchange.schema edit) := by
  obtain ⟨common, declared⟩ := schema_of_known exchange member
  rw [common]
  exact Database.conforming_apply (fun _ _ => accepted_of_known) (fun _ _ => storable_of_known)
    declared edit

theorem maintains_importAs (name : String) (fields : EditSet) :
    Call.Maintains (Database.Conforming ownFields?)
      (Database.collabStore.importAs name exchange.schema fields) := by
  obtain ⟨common, declared⟩ := schema_of_known exchange member
  rw [common]
  exact Database.conforming_importAs (fun _ _ => accepted_of_known) (fun _ _ => storable_of_known)
    declared name fields

end

/-! The exchanges of a workspace -/

/-- Beside the standard exchanges only one can be registered. -/
theorem known_of_build {added : List Exchange} {mapping : ExchangeMapping}
    (standard : ∀ exchange ∈ added, exchange = Catalog.hashlistExchange)
    (built : ExchangeMapping.build (Registry.standard.exchanges ++ added) = .ok mapping) :
    ∀ exchange ∈ mapping.exchanges, exchange ∈ known := by
  rw [ExchangeMapping.exchanges_of_build built]
  intro exchange member
  rcases List.mem_append.1 member with inStandard | isAdded
  · exact List.mem_append_left _ inStandard
  · exact List.mem_append_right _ (List.mem_singleton.2 (standard exchange isAdded))

theorem schema_of_threatExchange {mapping : ExchangeMapping}
    (all : ∀ exchange ∈ mapping.exchanges, exchange ∈ known) {registered : RegisteredExchange}
    (found : mapping.find? Standard.threatExchange.name = some registered) :
    registered.schema = Standard.threatExchange.schema := by
  have each : ∀ exchange ∈ known, exchange.name = Standard.threatExchange.name →
      exchange.schema = Standard.threatExchange.schema := by
    simp only [known, Standard.exchanges, List.cons_append, List.nil_append, List.forall_mem_cons]
    have others {name : String} {same : Prop} (differs : name ≠ Standard.threatExchange.name)
        (named : name = Standard.threatExchange.name) : same := absurd named differs
    exact ⟨fun _ => trivial, others (by decide), others (by decide), others (by decide),
      others (by decide), List.forall_mem_nil _⟩
  have named := List.find?_some found
  exact each registered.exchange
    (all _ (List.mem_map_of_mem (List.mem_of_find?_eq_some found))) (of_decide_eq_true named)

end Registry

end SignalExchange
