import SignalExchange.Proofs.Registry.Known
import SignalExchange.ThreatExchange.Settings

/-! The settings of a record that follows a privacy group.

They are read from the attributes by their own rules, apart from the schema. A record that conforms
to the schema always gives them, and they are what the attributes hold.
-/

set_option autoImplicit false

namespace SignalExchange

open Call

namespace Collab

variable {schema : Schema} {collab : Collab}

theorem Conforms.exists_attribute (conforms : collab.Conforms schema) {field : Field}
    (own : field ∈ schema.ownFields) :
    ∃ value, collab.attribute? field.name = some value ∧ field.type.Accepts value := by
  obtain ⟨entry, member, named⟩ := List.mem_map.1 (conforms.complete field own)
  refine ⟨entry.2, ?_, conforms.typed entry member field own named.symm⟩
  rw [attribute?, AscendingMap.find?_eq_some_iff, ← named]
  exact member

/-- The settings can be read. The group is the integer that is stored, and the token is the text
that is stored, or none where null is. -/
def HasSettings (collab : Collab) : Prop :=
  ∃ settings, collab.privacyGroupSettings = .ok settings ∧
    collab.attribute? "privacy_group" = some (.integer settings.group) ∧
    collab.attribute? "app_token_override" =
      some ((settings.tokenOverride.map Json.string).getD .null)

theorem hasSettings_of_conforms
    (conforms : collab.Conforms Standard.threatExchange.schema) : collab.HasSettings := by
  obtain ⟨groupField, inOwn, groupName, groupType⟩ :
      ∃ field ∈ Standard.threatExchange.schema.ownFields,
        field.name = "privacy_group" ∧ field.type = .integer := ⟨_, .head _, rfl, rfl⟩
  obtain ⟨tokenField, inOwn', tokenName, tokenType⟩ :
      ∃ field ∈ Standard.threatExchange.schema.ownFields,
        field.name = "app_token_override" ∧ field.type = .optional .text :=
    ⟨_, .tail _ (.head _), rfl, rfl⟩
  obtain ⟨group, groupHeld, groupFits⟩ := conforms.exists_attribute inOwn
  obtain ⟨token, tokenHeld, tokenFits⟩ := conforms.exists_attribute inOwn'
  rw [groupName] at groupHeld
  rw [groupType, FieldType.integer_accepts_iff] at groupFits
  rw [tokenName] at tokenHeld
  rw [tokenType, FieldType.optional_accepts_iff, FieldType.text_accepts_iff] at tokenFits
  obtain ⟨n, rfl, inRange⟩ := groupFits
  have readGroup : Json.asInteger (.integer n) = .ok n := if_pos inRange
  -- The settings have the same range for the group as the schema, and null is no token in both.
  have read (override : Option String)
      (taken : PrivacyGroupSettings.readToken (collab.attribute? "app_token_override") =
        .ok override) : collab.privacyGroupSettings = .ok ⟨n, override⟩ := by
    unfold attribute? at taken groupHeld
    simp [privacyGroupSettings, PrivacyGroupSettings.ofAttributes, taken, groupHeld, readGroup]
  rcases tokenFits with rfl | ⟨word, rfl⟩
  · exact ⟨⟨n, none⟩, read none (by rw [tokenHeld]; rfl), groupHeld, tokenHeld⟩
  · exact ⟨⟨n, some word⟩, read (some word) (by rw [tokenHeld]; rfl), groupHeld, tokenHeld⟩

end Collab

theorem AllConform.hasSettings {schemas : String → Option (List Field)}
    {held : String → Option Collab} (all : AllConform schemas held)
    (declared : schemas "fb_threatexchange" = some Standard.threatExchange.schema.ownFields)
    {name : String} {collab : Collab} (found : held name = some collab)
    (same : collab.api = "fb_threatexchange") : collab.HasSettings :=
  Collab.hasSettings_of_conforms (all.conforms declared found same)

/-- Whatever is created, edited, imported and removed from an empty store on, in a store that gives
back records as they were written or in the database, the settings of every record that follows a
privacy group can be read, and they are what is stored. -/
theorem hasSettings_of_history :
    (∀ {σ : Type} {store : CollabStore (StateM σ)} {view : RecordView σ},
      store.Faithful view → ∀ {schemas : String → Option (List Field)},
      schemas "fb_threatexchange" = some Standard.threatExchange.schema.ownFields →
      (∀ api own, schemas api = some own →
        ∃ fields, (Schema.ofFields api own).editableFields = .ok fields) →
      ∀ {log : List (RecordCommand × Except ConfigError Change)} {first state : σ},
      view.ready first → (∀ name, view.held first name = none) →
      History store schemas log first state → (∀ entry ∈ log, entry.1.Within view.fits) →
      ∀ name collab, view.held state name = some collab → collab.api = "fb_threatexchange" →
        collab.HasSettings) ∧
    ∀ {log : List (RecordCommand × Except ConfigError Change)} {first state : Database},
      first.collabs = some [] →
      History Database.collabStore Registry.ownFields? log first state →
      ∀ name, ∃ held, outcome (Database.collabStore.find? name) state = (.ok held, state) ∧
        ∀ collab, held = some collab → collab.api = "fb_threatexchange" → collab.HasSettings := by
  constructor
  · intro σ store view faithful schemas declared accepted log first state ready empty history within
      name collab found same
    have nothing : AllConform schemas (view.held first) := fun other _ there =>
      nomatch (empty other).symm.trans there
    obtain ⟨-, all⟩ := history.allConform faithful accepted within ready nothing
    exact all.hasSettings declared found same
  · intro log first state empty history name
    -- The database gives back only what fits into it, and the records of known exchanges do.
    obtain ⟨ready, all⟩ : first.Conforming Registry.ownFields? :=
      Database.conforming_of_noRecords empty
    obtain ⟨⟨records, keeps⟩, all⟩ := history.allConform Database.collabStore_faithful
      (fun _ _ => Registry.accepted_of_known)
      (history.within_of_storable fun _ _ => Registry.storable_of_known) ready all
    refine ⟨_, Database.outcome_findCollab keeps name, fun collab found same => ?_⟩
    exact all.hasSettings rfl ((keeps.held_apply name).trans found) same

/-- A record for the group of the greatest number that has 64 bits with a sign. -/
def greatestGroup (token : Json) : Collab :=
  ⟨"a", "fb_threatexchange", true,
    .ofList [("app_token_override", token), ("privacy_group", .integer 9223372036854775807)]⟩

def onPrivacyGroup (create : Bool) (entries : List (String × Json)) : RecordCommand :=
  .apply "fb_threatexchange" Standard.threatExchange.schema.ownFields
    ⟨"a", .ofList entries, create⟩

def createGreatest : RecordCommand :=
  onPrivacyGroup true
    [("name", .string "a"), ("privacy_group", .integer 9223372036854775807)]

def overrideToken : RecordCommand := onPrivacyGroup false [("app_token_override", .string "t")]

/-- A record in memory has a token after an edit, and one in the database that was created without
a token has none. -/
theorem greatestGroup_hasSettings :
    (∃ log table, History RecordTable.store Registry.ownFields? log .empty table ∧
      table.find? "a" = some (greatestGroup (.string "t")) ∧
      (greatestGroup (.string "t")).HasSettings) ∧
    ∃ log database, History Database.collabStore Registry.ownFields? log Database.empty database ∧
      outcome (Database.collabStore.find? "a") database =
        (.ok (some (greatestGroup .null)), database) ∧
      (greatestGroup .null).HasSettings := by
  have under (create : Bool) (entries : List (String × Json)) :
      (onPrivacyGroup create entries).Under Registry.ownFields? := rfl
  constructor
  · have created : outcome (createGreatest.perform RecordTable.store) .empty =
      (.ok (.written (greatestGroup .null)),
        RecordTable.put .empty (greatestGroup .null)) := rfl
    have edited : outcome (overrideToken.perform RecordTable.store)
        (RecordTable.put .empty (greatestGroup .null)) =
      (.ok (.written (greatestGroup (.string "t"))),
        (RecordTable.put .empty (greatestGroup .null)).put
          (greatestGroup (.string "t"))) := rfl
    have history := ((History.start _).step (under _ _) created).step (under _ _) edited
    have declared : Registry.ownFields? "fb_threatexchange" =
      some Standard.threatExchange.schema.ownFields := rfl
    exact ⟨_, _, history, rfl, hasSettings_of_history.1 RecordTable.store_faithful declared
      (fun _ _ => Registry.accepted_of_known) trivial (fun _ => rfl) history
      (fun entry _ => entry.1.within_total) "a" _ rfl rfl⟩
  · have created : outcome (createGreatest.perform Database.collabStore) Database.empty =
      (.ok (.written (greatestGroup .null)),
        Database.empty.withRecords [("a", greatestGroup .null)]) := rfl
    have history := (History.start _).step (under _ _) created
    have constructed : Collab.construct Standard.threatExchange.schema
        (.ofList [("name", .string "a"), ("privacy_group", .integer 9223372036854775807)]) =
      .ok (greatestGroup .null) := rfl
    have plain := Collab.plain_of_construct (by decide) constructed
    have keeps : (Database.empty.withRecords [("a", greatestGroup .null)]).Keeps
        [("a", greatestGroup .null)] :=
      .withRecords (Records.sound_nil.insert (Collab.construct_formed constructed) plain)
    have read := Database.outcome_findCollab keeps "a"
    obtain ⟨held, search, each⟩ := hasSettings_of_history.2 rfl history "a"
    obtain rfl := Except.ok.inj (Prod.mk.inj (search.symm.trans read)).1
    exact ⟨_, _, history, search, each _ rfl rfl⟩

end SignalExchange
