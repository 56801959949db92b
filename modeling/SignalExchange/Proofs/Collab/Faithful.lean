import SignalExchange.Proofs.Collab.Documents
import SignalExchange.Proofs.Json.Distinct

/-! Records and their texts.

A text holds no more than one record. It gives that record back unless an attribute has the name of
a common field, and however a record comes about, none of its attributes has one.
-/

set_option autoImplicit false

namespace SignalExchange

namespace Collab

/-- The record after an assignment; one that is refused leaves it as it is. -/
def attempt (schema : Schema) (collab : Collab) (field : String) (value : Json) : Collab :=
  match collab.assign schema field value with
  | .ok after => after
  | .error _ => collab

/-- Records that were constructed or read, and then assigned to. -/
inductive Obtained : Collab → Prop where
  | constructed {api : String} {own : List Field} {edit : EditSet} {collab : Collab}
      (done : construct (.ofFields api own) edit = .ok collab) : Obtained collab
  | read {text : String} {collab : Collab} (done : Collab.read text = .ok collab) : Obtained collab
  | assigned {collab : Collab} (before : Obtained collab) (api : String) (own : List Field)
      (field : String) (value : Json) :
      Obtained (attempt (.ofFields api own) collab field value)

theorem attempt_kept (api : String) (own : List Field) (collab : Collab) (field : String)
    (value : Json) : Kept collab (attempt (.ofFields api own) collab field value) := by
  unfold attempt
  split
  next after done => exact assign_kept done
  next => exact .refl collab

theorem Obtained.formed {collab : Collab} (obtained : Obtained collab) : collab.Formed := by
  induction obtained with
  | constructed done => exact construct_formed done
  | read done => exact formed_of_read done
  | assigned _ api own field value formed =>
    exact (attempt_kept api own _ field value).formed formed

theorem normal_entries {collab : Collab} (normal : Json.NormalEntries collab.attributes.entries) :
    Json.NormalEntries collab.entries := ⟨trivial, trivial, trivial, normal⟩

theorem eq_of_text_eq {first second : Collab} (normal : Json.NormalEntries first.attributes.entries)
    (normal' : Json.NormalEntries second.attributes.entries) (same : first.text = second.text) :
    first = second := by
  have texts := (List.cons.inj (String.ofList_injective same)).2
  have entries := (Json.printEntries_inj (normal_entries normal) (normal_entries normal')
    (Json.toldApart_entries first.entries (normal_entries normal)) texts).1
  -- The first three entries of a record are always its common fields.
  obtain ⟨name, api, enabled, attributes⟩ := first
  obtain ⟨name', api', enabled', attributes'⟩ := second
  simp only [Collab.entries, List.cons.injEq, Prod.mk.injEq, Json.string.injEq,
    Json.boolean.injEq, true_and] at entries
  obtain ⟨rfl, rfl, rfl, attributes⟩ := entries
  rw [AscendingMap.ext attributes]

/-- A record is read back from its text if its attributes are apart from the common fields, without
doubles and not too deep. Records that were constructed, read or assigned to have no attribute of a
common name. No two records have one text. -/
theorem text_faithful :
    (∀ collab : Collab, collab.Formed → collab.Plain → Collab.read collab.text = .ok collab) ∧
    (∀ collab : Collab, collab.Obtained → collab.Formed) ∧
    ∀ first second : Collab, Json.NormalEntries first.attributes.entries →
      Json.NormalEntries second.attributes.entries → first.text = second.text → first = second :=
  ⟨fun _ formed plain => read_text formed plain, fun _ obtained => obtained.formed,
    fun _ _ normal normal' same => eq_of_text_eq normal normal' same⟩

def sample : Collab where
  name := "c"
  api := "demo"
  enabled := true
  attributes := .ofList [("ids", .array [.integer (-1), .integer 18446744073709551615]),
    ("note", .string "\"\n")]

/-- A record that holds the double nearest to a tenth, or the one after it. -/
def tenth (next : Bool) : Collab where
  name := "c"
  api := "demo"
  enabled := true
  attributes := .ofList
    [("share", .double ⟨false, if next then 7205759403792795 else 7205759403792794, -56⟩)]

theorem text_faithful_sample : Collab.read sample.text = .ok sample ∧
    (attempt (.ofFields "demo" []) sample "name" (.string "d")).Formed ∧
    (tenth false).text ≠ (tenth true).text := by
  have formed : sample.Formed := by
    unfold Formed
    decide
  have plain : sample.Plain := by
    refine ⟨⟨⟨?_, ?_, trivial⟩, trivial, trivial⟩, by decide⟩
    · exact ⟨by decide, by decide⟩
    · exact ⟨by decide, by decide⟩
  have read := text_faithful.1 sample formed plain
  have normal : ∀ next, Json.NormalEntries (tenth next).attributes.entries := by
    intro next
    have tenths : ∀ next : Bool,
        (⟨false, if next then 7205759403792795 else 7205759403792794, -56⟩ : Binary64).Normal := by
      decide
    exact ⟨tenths next, trivial⟩
  refine ⟨read, text_faithful.2.1 _ (.assigned (.read read) "demo" [] "name" (.string "d")), ?_⟩
  intro same
  have equal := text_faithful.2.2 _ _ (normal false) (normal true) same
  have differs : (tenth false).attributes.entries ≠ (tenth true).attributes.entries := by
    simp [tenth, AscendingMap.ofList, Ascending.ofList, Ascending.insert]
  exact differs (congrArg (·.attributes.entries) equal)

end Collab

end SignalExchange
