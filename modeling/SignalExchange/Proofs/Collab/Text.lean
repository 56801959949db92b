import SignalExchange.Collab.Text
import SignalExchange.Proofs.Json.Typed

/-! A record is read back from its text.

A record is storable when none of its attributes has the name of a common field, and its document is
exact and within the nesting limit.
-/

set_option autoImplicit false

namespace SignalExchange

namespace Collab

/-- The attributes are apart from the common fields. -/
def Formed (collab : Collab) : Prop :=
  ∀ entry ∈ collab.attributes.entries, entry.1 ∉ commonNames

/-- Attributes without doubles, in a record that is nested less than 128 deep. -/
structure Plain (collab : Collab) : Prop where
  noDoubles : Json.ExactEntries collab.attributes.entries
  shallow : Json.entriesDepth collab.attributes.entries + 1 < 128

open Json

theorem readsBack_attribute {levels : Nat} {key : String} (own : key ∉ commonNames) {v : Json}
    (reads : ReadsBack (value levels) v.print v) (draft : Draft) :
    ReadsBack (Draft.member levels draft key) (':' :: v.print)
      { draft with attributes := draft.attributes.insert key v } := by
  intro rest ends
  have names : key ≠ "name" ∧ key ≠ "api" ∧ key ≠ "enabled" := by
    simpa [commonNames, commonFields] using own
  simp [Draft.member, names, (readsBack_member reads).cons_append ends]

theorem readsInTurn_attributes {levels : Nat} {attributes : List (String × Json)}
    (own : ∀ entry ∈ attributes, entry.1 ∉ commonNames)
    (reads : ∀ entry ∈ attributes, ReadsBack (value levels) entry.2.print entry.2) (draft : Draft) :
    ReadsInTurn (Draft.member levels) print draft attributes
      { draft with
        attributes := attributes.foldl (fun held entry => held.insert entry.1 entry.2)
          draft.attributes } := by
  induction attributes generalizing draft with
  | nil => exact .nil draft
  | cons entry more ih =>
    refine .cons (readsBack_attribute (own entry List.mem_cons_self)
      (reads entry List.mem_cons_self) draft) ?_
    exact ih (fun other member => own other (List.mem_cons_of_mem _ member))
      (fun other member => reads other (List.mem_cons_of_mem _ member)) _

theorem readsInTurn_entries {collab : Collab} (formed : collab.Formed) {levels : Nat}
    (reads : ∀ entry ∈ collab.attributes.entries, ReadsBack (value levels) entry.2.print entry.2) :
    ReadsInTurn (Draft.member levels) print ⟨none, none, none, .empty⟩ collab.entries
      ⟨some collab.name, some collab.api, some collab.enabled, collab.attributes⟩ := by
  have attributes := readsInTurn_attributes formed reads
    ⟨some collab.name, some collab.api, some collab.enabled, .empty⟩
  rw [AscendingMap.foldl_insert_entries] at attributes
  -- The reader moves through a draft for each common field before it comes to the attributes.
  have name : ReadsBack (Draft.member levels ⟨none, none, none, .empty⟩ "name")
      (':' :: print (.string collab.name)) ⟨some collab.name, none, none, .empty⟩ := by
    intro rest ends
    have read := readsBack_member (readsBack_stringValue collab.name)
    simp [Draft.member, once, read.cons_append ends]
  have api : ReadsBack (Draft.member levels ⟨some collab.name, none, none, .empty⟩ "api")
      (':' :: print (.string collab.api)) ⟨some collab.name, some collab.api, none, .empty⟩ := by
    intro rest ends
    have read := readsBack_member (readsBack_stringValue collab.api)
    simp [Draft.member, once, read.cons_append ends]
  have enabled :
      ReadsBack (Draft.member levels ⟨some collab.name, some collab.api, none, .empty⟩ "enabled")
        (':' :: print (.boolean collab.enabled))
        ⟨some collab.name, some collab.api, some collab.enabled, .empty⟩ := by
    intro rest ends
    have read := readsBack_member (readsBack_booleanValue collab.enabled)
    simp [Draft.member, once, read.cons_append ends]
  exact .cons name (.cons api (.cons enabled attributes))

theorem read_text {collab : Collab} (formed : collab.Formed) (plain : collab.Plain) :
    Collab.read collab.text = .ok collab := by
  -- One of the 127 levels goes to the braces of the record.
  have shallow : entriesDepth collab.attributes.entries ≤ 126 := by
    have := plain.shallow
    omega
  have entries := readsInTurn_entries formed
    (readsBack_entries keepsAscending_insert collab.attributes.entries plain.noDoubles 126 shallow)
  have reads : ReadsBack (scanner nestingLimit)
      ('\x7b' :: (printEntries collab.entries ++ ['\x7d'])) collab := by
    intro rest _
    have members := allMembers_print entries rest
    rw [printEntries_eq, List.cons_append, List.append_assoc, List.singleton_append]
    refine (objectOf_brace _ _ 126 _).trans (inObject_of_body ?_)
    simp [members, Draft.finish, required]
  exact readWith_of_readsBack reads

end Collab

end SignalExchange
