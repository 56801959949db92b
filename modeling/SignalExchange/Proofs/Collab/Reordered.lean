import SignalExchange.Proofs.Collab.Updates

/-! Edits made again, and edits made in another order.

Whether an assignment can be made depends on the name and the exchange of the record alone, and no
assignment changes these. So an edit that succeeds is a series of plain writes, and it succeeds
whatever other edits wrote before it.
-/

set_option autoImplicit false

namespace SignalExchange

open Call

namespace Collab

/-- The record with a value written to its place. The name and the exchange are never written. -/
def withValue (collab : Collab) (entry : String × Json) : Collab :=
  match entry with
  | ("name", .string _) => collab
  | ("api", .string _) => collab
  | ("enabled", .boolean enabled) => { collab with enabled := enabled }
  | (field, value) => { collab with attributes := collab.attributes.insert field value }

def withValues (collab : Collab) (entries : List (String × Json)) : Collab :=
  entries.foldl withValue collab

def Admits (collab : Collab) (schema : Schema) (entry : String × Json) : Prop :=
  ∃ after, collab.assign schema entry.1 entry.2 = .ok after

/-! Writes -/

theorem withValue_cases (entry : String × Json) :
    (∀ collab : Collab, collab.withValue entry = collab) ∨
    (entry.1 = "enabled" ∧ ∃ enabled, ∀ collab : Collab,
      collab.withValue entry = { collab with enabled := enabled }) ∨
    ∀ collab : Collab, collab.withValue entry =
      { collab with attributes := collab.attributes.insert entry.1 entry.2 } := by
  unfold withValue
  split
  · exact .inl fun _ => rfl
  · exact .inl fun _ => rfl
  · exact .inr (.inl ⟨rfl, _, fun _ => rfl⟩)
  · exact .inr (.inr fun _ => rfl)

@[simp] theorem name_withValue (collab : Collab) (entry : String × Json) :
    (collab.withValue entry).name = collab.name := by
  rcases withValue_cases entry with same | ⟨-, _, same⟩ | same <;> rw [same]

@[simp] theorem api_withValue (collab : Collab) (entry : String × Json) :
    (collab.withValue entry).api = collab.api := by
  rcases withValue_cases entry with same | ⟨-, _, same⟩ | same <;> rw [same]

theorem withValue_again (collab : Collab) (entry between : String × Json) :
    ((collab.withValue entry).withValue between).withValue entry =
      (collab.withValue between).withValue entry := by
  rcases withValue_cases entry with same | ⟨-, _, same⟩ | same
  · simp only [same]
  · rcases withValue_cases between with other | ⟨-, _, other⟩ | other <;> simp only [same, other]
  · rcases withValue_cases between with other | ⟨-, _, other⟩ | other
    · simp only [same, other, AscendingMap.insert_insert]
    · simp only [same, other, AscendingMap.insert_insert]
    · by_cases keys : entry.1 = between.1
      · simp only [same, other, keys, AscendingMap.insert_insert]
      · simp only [same, other, AscendingMap.insert_comm (Ne.symm keys), AscendingMap.insert_insert]

theorem withValue_twice (collab : Collab) (entry : String × Json) :
    (collab.withValue entry).withValue entry = collab.withValue entry := by
  rcases withValue_cases entry with same | ⟨-, _, same⟩ | same
  · simp only [same]
  · simp only [same]
  · simp only [same, AscendingMap.insert_insert]

theorem withValue_comm (collab : Collab) {first second : String × Json}
    (apart : first.1 ≠ second.1) :
    (collab.withValue first).withValue second = (collab.withValue second).withValue first := by
  rcases withValue_cases first with same | ⟨here, _, same⟩ | same
  · simp only [same]
  · rcases withValue_cases second with other | ⟨there, _, other⟩ | other
    · simp only [other]
    · exact absurd (here.trans there.symm) apart
    · simp only [same, other]
  · rcases withValue_cases second with other | ⟨-, _, other⟩ | other
    · simp only [other]
    · simp only [same, other]
    · simp only [same, other, AscendingMap.insert_comm apart]

@[simp] theorem withValues_nil (collab : Collab) : collab.withValues [] = collab := rfl

@[simp] theorem withValues_cons (collab : Collab) (entry : String × Json)
    (entries : List (String × Json)) :
    collab.withValues (entry :: entries) = (collab.withValue entry).withValues entries := rfl

theorem withValues_append (collab : Collab) (first second : List (String × Json)) :
    collab.withValues (first ++ second) = (collab.withValues first).withValues second :=
  List.foldl_append

@[simp] theorem name_withValues (collab : Collab) (entries : List (String × Json)) :
    (collab.withValues entries).name = collab.name := by
  induction entries generalizing collab with
  | nil => rfl
  | cons entry rest ih => rw [withValues_cons, ih, name_withValue]

@[simp] theorem api_withValues (collab : Collab) (entries : List (String × Json)) :
    (collab.withValues entries).api = collab.api := by
  induction entries generalizing collab with
  | nil => rfl
  | cons entry rest ih => rw [withValues_cons, ih, api_withValue]

theorem withValues_again (collab : Collab) (entry : String × Json)
    (between : List (String × Json)) :
    ((collab.withValue entry).withValues between).withValue entry =
      (collab.withValues between).withValue entry := by
  induction between generalizing collab with
  | nil => exact withValue_twice collab entry
  | cons other rest ih =>
    rw [withValues_cons, withValues_cons, ← ih ((collab.withValue entry).withValue other),
      withValue_again, ih]

theorem withValues_repeated (collab : Collab) (entries between : List (String × Json)) :
    collab.withValues (entries ++ between ++ entries) = collab.withValues (between ++ entries) := by
  -- The first write is left out, and its repetition is one more of those in between.
  induction entries generalizing collab between with
  | nil => rw [List.nil_append]
  | cons entry rest ih =>
    have moved := ih collab (between ++ [entry])
    simp only [withValues_append, withValues_cons, withValues_nil] at moved ⊢
    rw [← withValues_append _ rest between, withValues_again, withValues_append, moved]

theorem withValues_withValue_comm (collab : Collab) {entry : String × Json}
    {entries : List (String × Json)} (apart : ∀ other ∈ entries, entry.1 ≠ other.1) :
    (collab.withValue entry).withValues entries = (collab.withValues entries).withValue entry := by
  induction entries generalizing collab with
  | nil => rfl
  | cons other rest ih =>
    rw [List.forall_mem_cons] at apart
    rw [withValues_cons, withValues_cons, withValue_comm collab apart.1, ih _ apart.2]

theorem withValues_comm (collab : Collab) {first second : List (String × Json)}
    (apart : ∀ entry ∈ first, ∀ other ∈ second, entry.1 ≠ other.1) :
    (collab.withValues first).withValues second = (collab.withValues second).withValues first := by
  induction first generalizing collab with
  | nil => rfl
  | cons entry rest ih =>
    rw [List.forall_mem_cons] at apart
    rw [withValues_cons, withValues_cons, ih _ apart.2, withValues_withValue_comm collab apart.1]

/-! Assignments -/

variable {schema : Schema} {collab other after : Collab}

theorem withValue_of_put {field : String} {value : Json}
    (put : collab.put field value = .ok after) : after = collab.withValue (field, value) := by
  unfold Collab.put at put
  split at put
  · split at put <;> cases put
    rfl
  · split at put <;> cases put
    rfl
  · cases put
    rfl
  next notName notApi notEnabled =>
    cases put
    rw [withValue]
    · exact notName
    · exact notApi
    · exact notEnabled

theorem put_congr {field : String} {value : Json} (name : other.name = collab.name)
    (api : other.api = collab.api) (put : collab.put field value = .ok after) :
    ∃ written, other.put field value = .ok written := by
  unfold Collab.put at put ⊢
  rw [name, api]
  split at put
  · split at put <;> cases put
    next same => simp [same]
  · split at put <;> cases put
    next same => simp [same]
  · simp
  · simp

theorem withValue_of_assign {entry : String × Json}
    (assigned : collab.assign schema entry.1 entry.2 = .ok after) :
    after = collab.withValue entry := by
  unfold assign at assigned
  split at assigned
  · cases assigned
  · obtain ⟨_, -, put⟩ := Except.bind_eq_ok.1 assigned
    exact withValue_of_put put

theorem Admits.congr {entry : String × Json} (admits : collab.Admits schema entry)
    (name : other.name = collab.name) (api : other.api = collab.api) :
    other.Admits schema entry := by
  obtain ⟨after, assigned⟩ := admits
  unfold assign at assigned
  split at assigned
  · cases assigned
  next declared found =>
    obtain ⟨_, checked, put⟩ := Except.bind_eq_ok.1 assigned
    obtain ⟨written, also⟩ := put_congr name api put
    refine ⟨written, ?_⟩
    rw [assign, found]
    dsimp only
    rw [checked, Except.ok_bind, also]

theorem assignAll_eq_ok {edit : EditSet} :
    collab.assignAll schema edit = .ok after ↔
      (∀ entry ∈ edit.entries, collab.Admits schema entry) ∧
        after = collab.withValues edit.entries := by
  obtain ⟨entries⟩ := edit
  simp only [assignAll]
  induction entries generalizing collab with
  | nil => simp [eq_comm]
  | cons entry rest ih =>
    rw [List.foldlM_cons, List.forall_mem_cons]
    constructor
    · intro run
      obtain ⟨middle, assigned, run⟩ := Except.bind_eq_ok.1 run
      obtain ⟨admits, rfl⟩ := ih.1 run
      cases withValue_of_assign assigned
      refine ⟨⟨⟨_, assigned⟩, fun other member => ?_⟩, rfl⟩
      exact (admits other member).congr (name_withValue _ _).symm (api_withValue _ _).symm
    · rintro ⟨⟨⟨middle, assigned⟩, admits⟩, rfl⟩
      cases withValue_of_assign assigned
      refine Except.bind_eq_ok.2 ⟨_, assigned, ih.2 ⟨fun other member => ?_, rfl⟩⟩
      exact (admits other member).congr (name_withValue _ _) (api_withValue _ _)

end Collab

/-! Edits -/

/-- Each record stands under its own name. -/
def OwnNames (held : String → Option Collab) : Prop :=
  ∀ name collab, held name = some collab → collab.name = name

theorem OwnNames.written {held : String → Option Collab} (own : OwnNames held) (made : Collab) :
    OwnNames ((Change.written made).onto held) := by
  intro name collab found
  by_cases same : made.name = name
  · subst same
    rw [Change.written_onto_self] at found
    cases found
    rfl
  · rw [Change.onto_of_ne (.written made) same] at found
    exact own name collab found

namespace Change

variable {held : String → Option Collab}

theorem written_onto_written {first last : Collab} (same : first.name = last.name) :
    (written last).onto ((written first).onto held) = (written last).onto held := by
  funext name
  simp only [onto, after, same]
  split <;> rfl

theorem written_onto_comm {first second : Collab} (differs : first.name ≠ second.name) :
    (written second).onto ((written first).onto held) =
      (written first).onto ((written second).onto held) := by
  funext name
  by_cases here : second.name = name
  · subst here
    simp [onto, after, differs]
  · simp [onto, after, here]

end Change

/-- The edit makes this record of the one that is held under its identifier. -/
structure ResolvedEdit.Makes (edit : ResolvedEdit) (schema : Schema)
    (held : String → Option Collab) (existing made : Collab) : Prop where
  found : held edit.identifier = some existing
  api : existing.api = schema.api
  admits : ∀ entry ∈ edit.edit.entries, existing.Admits schema entry
  made : made = existing.withValues edit.edit.entries

namespace ResolvedEdit

variable {edit first second : ResolvedEdit} {schema other : Schema}
  {held : String → Option Collab} {existing made written : Collab}

theorem Makes.again (makes : edit.Makes schema held existing made) (own : OwnNames held) :
    edit.Makes schema ((Change.written made).onto held) made made := by
  obtain ⟨found, api, admits, rfl⟩ := makes
  have named : (existing.withValues edit.edit.entries).name = edit.identifier :=
    (Collab.name_withValues _ _).trans (own _ _ found)
  refine ⟨?_, ?_, fun entry member => ?_, ?_⟩
  · rw [← named, Change.written_onto_self]
  · rw [Collab.api_withValues, api]
  · exact (admits entry member).congr (Collab.name_withValues _ _) (Collab.api_withValues _ _)
  · have repeated := existing.withValues_repeated edit.edit.entries []
    rw [List.append_nil, List.nil_append, Collab.withValues_append] at repeated
    exact repeated.symm

theorem Makes.elsewhere (makes : edit.Makes schema held existing made)
    (differs : written.name ≠ edit.identifier) :
    edit.Makes schema ((Change.written written).onto held) existing made :=
  ⟨(Change.onto_of_ne (.written written) differs).trans makes.found, makes.api, makes.admits,
    makes.made⟩

theorem Makes.behind (makes : edit.Makes schema held existing made)
    (named : written.name = edit.identifier) (same : existing.api = written.api)
    (own : OwnNames held) :
    edit.Makes schema ((Change.written written).onto held) written
      (written.withValues edit.edit.entries) := by
  refine ⟨?_, same.symm.trans makes.api, fun entry member => ?_, rfl⟩
  · rw [← named, Change.written_onto_self]
  · exact (makes.admits entry member).congr (named.trans (own _ _ makes.found).symm) same.symm

theorem Makes.name (makes : edit.Makes schema held existing made) (own : OwnNames held) :
    made.name = edit.identifier := by
  rw [makes.made, Collab.name_withValues]
  exact own _ _ makes.found

theorem Makes.sameApi (makes : edit.Makes schema held existing made) :
    made.api = existing.api := by
  rw [makes.made, Collab.api_withValues]

/-- What two edits make of the records does not depend on which of them comes first, if the records
or the fields are not the same. -/
theorem Makes.exchange {existing' made' : Collab}
    (makes : first.Makes schema held existing made)
    (also : second.Makes other held existing' made') (own : OwnNames held)
    (apart : first.identifier ≠ second.identifier ∨ first.edit.keys.Disjoint second.edit.keys) :
    ∃ left behind right before,
      second.Makes other ((Change.written made).onto held) left behind ∧
      first.Makes schema ((Change.written made').onto held) right before ∧
      (Change.written behind).onto ((Change.written made).onto held) =
        (Change.written before).onto ((Change.written made').onto held) := by
  have name := makes.name own
  have name' := also.name own
  by_cases same : first.identifier = second.identifier
  -- Both edits are of one record, so their fields are apart and their writes may change places.
  · have keys := apart.resolve_left (absurd same)
    have one : existing = existing' :=
      Option.some.inj (makes.found.symm.trans (same ▸ also.found))
    subst one
    have behind := also.behind (name.trans same) makes.sameApi.symm own
    have before := makes.behind (name'.trans same.symm) also.sameApi.symm own
    refine ⟨_, _, _, _, behind, before, ?_⟩
    have differ : ∀ entry ∈ first.edit.entries, ∀ other ∈ second.edit.entries,
        entry.1 ≠ other.1 := fun entry here other there equal =>
      keys (List.mem_map_of_mem here) (equal ▸ List.mem_map_of_mem there)
    have written : made.withValues second.edit.entries = made'.withValues first.edit.entries := by
      rw [makes.made, also.made, Collab.withValues_comm existing differ]
    rw [← written, Change.written_onto_written (Collab.name_withValues made _).symm, written,
      Change.written_onto_written (Collab.name_withValues made' _).symm]
  -- The edits are of two records, and neither sees what the other wrote.
  · refine ⟨_, _, _, _, also.elsewhere (name ▸ same), makes.elsewhere ?_, ?_⟩
    · rw [name']
      exact Ne.symm same
    · refine Change.written_onto_comm ?_
      rw [name, name']
      exact same

theorem verdict_eq_ok_iff_makes (update : edit.create = false) {done : Outcome} :
    edit.verdict schema (held edit.identifier) = .ok done ↔
      ∃ existing made, edit.Makes schema held existing made ∧ done = .updated made := by
  rw [verdict_update update]
  constructor
  · rintro ⟨existing, made, found, api, assigned, rfl⟩
    obtain ⟨admits, same⟩ := Collab.assignAll_eq_ok.1 assigned
    exact ⟨existing, made, ⟨found, api, admits, same⟩, rfl⟩
  · rintro ⟨existing, made, makes, rfl⟩
    exact ⟨existing, made, makes.found, makes.api,
      Collab.assignAll_eq_ok.2 ⟨makes.admits, makes.made⟩, rfl⟩

end ResolvedEdit

section

variable {σ : Type} {store : CollabStore (StateM σ)} {view : RecordView σ}
  (reliable : store.Reliable view) {schema : Schema} {edit : ResolvedEdit} {state : σ}
  (ready : view.ready state) (within : edit.Within view.fits schema)
  (update : edit.create = false) (own : OwnNames (view.held state))

include reliable ready within update own

theorem outcome_of_makes {existing made : Collab}
    (makes : edit.Makes schema (view.held state) existing made) :
    ∃ after, outcome (store.apply schema edit) state = (.ok (.updated made), after) ∧
      view.Shows after ((Change.written made).onto (view.held state)) := by
  obtain ⟨after, ran, settles⟩ := outcome_of_verdict reliable ready edit within
    (own edit.identifier) fun create => absurd create (update ▸ nofun)
  have verdict := (ResolvedEdit.verdict_eq_ok_iff_makes update).2 ⟨existing, made, makes, rfl⟩
  rw [verdict] at ran settles
  rw [RecordView.Settles, (shows_afterSearch reliable ready _).2] at settles
  exact ⟨after, ran, settles⟩

theorem makes_of_outcome {done : Outcome} {after : σ}
    (ran : outcome (store.apply schema edit) state = (.ok done, after)) :
    ∃ existing made, edit.Makes schema (view.held state) existing made ∧ done = .updated made ∧
      view.Shows after ((Change.written made).onto (view.held state)) := by
  obtain ⟨left, other, settles⟩ := outcome_of_verdict reliable ready edit within
    (own edit.identifier) fun create => absurd create (update ▸ nofun)
  obtain ⟨verdict, rfl⟩ := Prod.mk.inj (other.symm.trans ran)
  obtain ⟨existing, made, makes, rfl⟩ :=
    (ResolvedEdit.verdict_eq_ok_iff_makes update).1 verdict
  rw [verdict, RecordView.Settles, (shows_afterSearch reliable ready _).2] at settles
  exact ⟨existing, made, makes, rfl, settles⟩

end

section

variable {σ : Type} {store : CollabStore (StateM σ)} {view : RecordView σ}

/-- An edit of a record that succeeded succeeds again, with the same record, and leaves the store as
it is. Two edits that succeed by themselves succeed in either order and leave the same store, if they
are of two records or have no field in common. -/
theorem edits_repeat_and_commute (reliable : store.Reliable view) {first second : ResolvedEdit}
    (update : first.create = false) (also : second.create = false) {state : σ}
    (ready : view.ready state) (own : OwnNames (view.held state)) (schema other : Schema)
    (within : first.Within view.fits schema) (within' : second.Within view.fits other) :
    (∀ done after, outcome (store.apply schema first) state = (.ok done, after) →
      ∃ last, outcome (store.apply schema first) after = (.ok done, last) ∧
        view.held last = view.held after) ∧
    ∀ one two left right,
      outcome (store.apply schema first) state = (.ok one, left) →
      outcome (store.apply other second) state = (.ok two, right) →
      first.identifier ≠ second.identifier ∨ first.edit.keys.Disjoint second.edit.keys →
      ∃ behind before last final,
        outcome (store.apply other second) left = (.ok behind, last) ∧
        outcome (store.apply schema first) right = (.ok before, final) ∧
        view.held last = view.held final := by
  constructor
  · intro done after ran
    obtain ⟨existing, made, makes, rfl, isReady, held⟩ :=
      makes_of_outcome reliable ready within update own ran
    -- What the edit made it makes again of its own result, so the same record is written again.
    have again := makes.again own
    rw [← held] at again
    obtain ⟨last, ranAgain, -, left⟩ := outcome_of_makes reliable isReady within update
      (held ▸ own.written made) again
    refine ⟨last, ranAgain, ?_⟩
    rw [left, held, Change.written_onto_written rfl]
  · intro one two left right ran ran' apart
    obtain ⟨existing, made, makes, rfl, readyLeft, heldLeft⟩ :=
      makes_of_outcome reliable ready within update own ran
    obtain ⟨existing', made', makes', rfl, readyRight, heldRight⟩ :=
      makes_of_outcome reliable ready within' also own ran'
    -- Each edit can be made to what the other one left, and the same records come of both orders.
    obtain ⟨_, behind, _, before, later, earlier, same⟩ := makes.exchange makes' own apart
    rw [← heldLeft] at later
    rw [← heldRight] at earlier
    obtain ⟨last, ranBehind, -, heldLast⟩ :=
      outcome_of_makes reliable readyLeft within' also (heldLeft ▸ own.written made) later
    obtain ⟨final, ranBefore, -, heldFinal⟩ :=
      outcome_of_makes reliable readyRight within update (heldRight ▸ own.written made') earlier
    refine ⟨_, _, last, final, ranBehind, ranBefore, ?_⟩
    rw [heldLast, heldFinal, heldLeft, heldRight, same]

end

def prioritize : ResolvedEdit := ⟨"a", ⟨[("priority", .integer 2)]⟩, false⟩

def rewrite : ResolvedEdit :=
  ⟨"a", ⟨[("note", .string "m"), ("enabled", .boolean false)]⟩, false⟩

/-- One edit changes the priority of a record. The other one changes its note and disables it. -/
theorem noted_in_either_order : ∃ one two left right again behind before repeated last final,
    outcome (RecordTable.store.apply (.ofFields "demo" notedFields) prioritize) notedTable =
      (.ok one, left) ∧
    outcome (RecordTable.store.apply (.ofFields "demo" notedFields) rewrite) notedTable =
      (.ok two, right) ∧
    outcome (RecordTable.store.apply (.ofFields "demo" notedFields) prioritize) left =
      (.ok again, repeated) ∧ again = one ∧ repeated.find? = left.find? ∧
    outcome (RecordTable.store.apply (.ofFields "demo" notedFields) rewrite) left =
      (.ok behind, last) ∧
    outcome (RecordTable.store.apply (.ofFields "demo" notedFields) prioritize) right =
      (.ok before, final) ∧
    last.find? = final.find? ∧ last.find? "a" =
      some ⟨"a", "demo", false, .ofList [("note", .string "m"), ("priority", .integer 2)]⟩ := by
  have own : OwnNames notedTable.find? := by
    have none : OwnNames (AscendingMap.find? .empty) := nofun
    rw [notedTable, RecordTable.find?_put]
    exact none.written noted
  obtain ⟨repeats, commutes⟩ := @edits_repeat_and_commute _ _ _ RecordTable.store_reliable
    prioritize rewrite rfl rfl notedTable trivial own (.ofFields "demo" notedFields)
    (.ofFields "demo" notedFields) .total .total
  have apart : prioritize.edit.keys.Disjoint rewrite.edit.keys := by
    simp [prioritize, rewrite, EditSet.keys]
  have ran : outcome (RecordTable.store.apply (.ofFields "demo" notedFields) prioritize)
    notedTable = (.ok _, _) := rfl
  have ran' : outcome (RecordTable.store.apply (.ofFields "demo" notedFields) rewrite)
    notedTable = (.ok _, _) := rfl
  obtain ⟨repeated, again, kept⟩ := repeats _ _ ran
  obtain ⟨behind, before, last, final, ranBehind, ranBefore, same⟩ :=
    commutes _ _ _ _ ran ran' (.inr apart)
  refine ⟨_, _, _, _, _, behind, before, repeated, last, final, ran, ran', again, rfl, kept,
    ranBehind, ranBefore, same, ?_⟩
  cases ranBehind
  rfl

end SignalExchange
