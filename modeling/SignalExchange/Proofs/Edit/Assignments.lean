import Mathlib.Data.List.Induction
import Mathlib.Data.List.Nodup
import SignalExchange.Edit.EditSet
import SignalExchange.Proofs.Ascending

/-! Assignments made one after another.

The last assignment to a field decides its value and the first one its place.
-/

set_option autoImplicit false

namespace SignalExchange

namespace EditSet

variable {entries : List (String × Json)}

theorem lookup_append (field : String) (first second : List (String × Json)) :
    lookup field (first ++ second) = (lookup field first).or (lookup field second) := by
  induction first with
  | nil => rfl
  | cons entry rest ih =>
    obtain ⟨key, value⟩ := entry
    by_cases same : key = field
    · simp [lookup, same]
    · simp [lookup, same, ih]

theorem lookup_eq_some_iff (distinct : (entries.map (·.1)).Nodup) {field : String} {value : Json} :
    lookup field entries = some value ↔ (field, value) ∈ entries := by
  induction entries with
  | nil => simp [lookup]
  | cons entry rest ih =>
    obtain ⟨key, first⟩ := entry
    rw [List.map_cons, List.nodup_cons] at distinct
    by_cases same : key = field
    · subst same
      have once : (key, value) ∉ rest := fun again =>
        distinct.1 (List.mem_map.2 ⟨_, again, rfl⟩)
      simp [lookup, once, eq_comm]
    · simp [lookup, same, Ne.symm same, ih distinct.2]

theorem lookup_reverse (distinct : (entries.map (·.1)).Nodup) (field : String) :
    lookup field entries.reverse = lookup field entries := by
  have reversed : (entries.reverse.map (·.1)).Nodup := by
    rw [List.map_reverse]
    exact List.nodup_reverse.2 distinct
  apply Option.ext
  intro value
  rw [lookup_eq_some_iff distinct, lookup_eq_some_iff reversed, List.mem_reverse]

theorem get?_of_perm {first second : EditSet} (distinct : first.keys.Nodup)
    (reordered : second.entries.Perm first.entries) (field : String) :
    second.get? field = first.get? field := by
  have distinct' : (second.entries.map (·.1)).Nodup := (reordered.map _).nodup_iff.2 distinct
  apply Option.ext
  intro value
  rw [get?, get?, lookup_eq_some_iff distinct', lookup_eq_some_iff distinct, reordered.mem_iff]

theorem ofList_concat (entries : List (String × Json)) (entry : String × Json) :
    ofList (entries ++ [entry]) = (ofList entries).set entry.1 entry.2 := by
  simp [ofList]

theorem ofList_append (first second : List (String × Json)) :
    ofList (first ++ second) =
      second.foldl (fun edit entry => edit.set entry.1 entry.2) (ofList first) := by
  simp [ofList]

theorem get?_ofList (entries : List (String × Json)) (field : String) :
    (ofList entries).get? field = lookup field entries.reverse := by
  induction entries using List.reverseRecOn with
  | nil => rfl
  | append_singleton entries last ih =>
    obtain ⟨key, value⟩ := last
    rw [ofList_concat, List.reverse_append, List.reverse_singleton, List.singleton_append, lookup]
    by_cases same : key = field
    · simp [same]
    · simp [get?_set_of_ne _ (Ne.symm same), same, ih]

theorem find?_ofList (entries : List (String × Json)) (key : String) :
    Ascending.find? key (Ascending.ofList entries) = lookup key entries.reverse := by
  induction entries using List.reverseRecOn with
  | nil => rfl
  | append_singleton entries last ih =>
    obtain ⟨k, v⟩ := last
    rw [Ascending.ofList, List.foldl_append, List.reverse_append, List.reverse_singleton,
      List.singleton_append, lookup]
    by_cases same : k = key
    · subst same
      simp
    · simp only [List.foldl_cons, List.foldl_nil, same, if_false, ← ih]
      exact Ascending.find?_insert_of_ne (Ne.symm same) v _

theorem keys_ofList (entries : List (String × Json)) :
    (ofList entries).keys = (entries.map (·.1)).eraseDups := by
  induction entries using List.reverseRecOn with
  | nil => rfl
  | append_singleton entries last ih =>
    obtain ⟨key, value⟩ := last
    rw [ofList_concat, keys_set, ih, List.map_append, List.eraseDups_append]
    by_cases old : key ∈ entries.map (·.1)
    · simp [old, List.removeAll]
    · simp [old, List.removeAll, List.eraseDups_cons]

theorem nodup_keys_ofList (entries : List (String × Json)) : (ofList entries).keys.Nodup := by
  induction entries using List.reverseRecOn with
  | nil => exact List.nodup_nil
  | append_singleton entries last ih =>
    rw [ofList_concat, keys_set]
    split
    · exact ih
    next fresh =>
      rw [List.nodup_append]
      refine ⟨ih, List.nodup_singleton _, ?_⟩
      rintro key member _ inLast rfl
      rw [List.mem_singleton] at inLast
      subst inLast
      exact fresh member

/-! ### The order of first assignments -/

/-- What the last of the calls that set the field gave it. -/
def lastValue (field : String) (calls : List (String × Json)) : Option Json :=
  ((calls.filter fun call => call.1 = field).getLast?).map (·.2)

/-- The second field is set, and not before a call has set the first one. -/
def FirstBefore (calls : List (String × Json)) (first second : String) : Prop :=
  second ∈ calls.map (·.1) ∧
    (calls.map (·.1)).idxOf first < (calls.map (·.1)).idxOf second

theorem lookup_eq_find? (field : String) (entries : List (String × Json)) :
    lookup field entries = (entries.find? fun entry => entry.1 = field).map (·.2) := by
  induction entries with
  | nil => rfl
  | cons entry rest ih =>
    obtain ⟨key, value⟩ := entry
    by_cases same : key = field
    · simp [lookup, same]
    · simp [lookup, same, ih]

theorem get?_ofList_eq_lastValue (calls : List (String × Json)) (field : String) :
    (ofList calls).get? field = lastValue field calls := by
  rw [get?_ofList, lookup_eq_find?, lastValue, List.getLast?_filter]

theorem idxOf_eraseDups_lt_iff {fields : List String} {first second : String}
    (occurs : second ∈ fields) :
    fields.eraseDups.idxOf first < fields.eraseDups.idxOf second ↔
      fields.idxOf first < fields.idxOf second := by
  induction fields using List.reverseRecOn with
  | nil => exact absurd occurs List.not_mem_nil
  | append_singleton fields last ih =>
    by_cases earlier : second ∈ fields
    · -- Both items keep their places, or the first one is not among the earlier ones.
      have kept : second ∈ fields.eraseDups := List.mem_eraseDups.2 earlier
      by_cases known : first ∈ fields
      · have known' : first ∈ fields.eraseDups := List.mem_eraseDups.2 known
        rw [List.eraseDups_append, List.idxOf_append_of_mem kept, List.idxOf_append_of_mem known',
          List.idxOf_append_of_mem earlier, List.idxOf_append_of_mem known]
        exact ih earlier
      · have known' : first ∉ fields.eraseDups := fun there => known (List.mem_eraseDups.1 there)
        have place := List.idxOf_lt_length_of_mem earlier
        have place' := List.idxOf_lt_length_of_mem kept
        rw [List.eraseDups_append, List.idxOf_append_of_mem kept,
          List.idxOf_append_of_notMem known', List.idxOf_append_of_mem earlier,
          List.idxOf_append_of_notMem known]
        omega
    -- The second item is the last one and new, so it comes behind whatever was there.
    · obtain rfl : second = last := by
        simpa [earlier] using occurs
      have new : second ∉ fields.eraseDups := fun there => earlier (List.mem_eraseDups.1 there)
      have alone : ([second].removeAll fields).eraseDups = [second] := by
        simp [List.removeAll, earlier, List.eraseDups_cons]
      rw [List.eraseDups_append, alone, List.idxOf_append, List.idxOf_append_of_notMem new,
        List.idxOf_append, List.idxOf_append_of_notMem earlier]
      by_cases known : first ∈ fields
      · have known' : first ∈ fields.eraseDups := List.mem_eraseDups.2 known
        have place := List.idxOf_lt_length_of_mem known
        have place' := List.idxOf_lt_length_of_mem known'
        simp [known, known', place, place']
      · have known' : first ∉ fields.eraseDups := fun there => known (List.mem_eraseDups.1 there)
        simp only [known, known', if_false, List.idxOf_cons_self]
        omega

theorem mem_keys_ofList {calls : List (String × Json)} {field : String} :
    field ∈ (ofList calls).keys ↔ field ∈ calls.map (·.1) := by
  rw [keys_ofList, List.mem_eraseDups]

theorem firstBefore_iff {calls : List (String × Json)} {first second : String} :
    FirstBefore calls first second ↔
      second ∈ (ofList calls).keys ∧
        (ofList calls).keys.idxOf first < (ofList calls).keys.idxOf second := by
  rw [mem_keys_ofList, keys_ofList, FirstBefore]
  exact and_congr_right fun occurs => (idxOf_eraseDups_lt_iff occurs).symm

theorem FirstBefore.asymm {calls : List (String × Json)} {first second : String}
    (before : FirstBefore calls first second) : ¬ FirstBefore calls second first :=
  fun after => Nat.lt_asymm before.2 after.2

theorem pairwise_keys_ofList (calls : List (String × Json)) :
    (ofList calls).keys.Pairwise (FirstBefore calls) := by
  have distinct := nodup_keys_ofList calls
  rw [List.pairwise_iff_getElem]
  intro i j hi hj earlier
  rw [firstBefore_iff, distinct.idxOf_getElem i hi, distinct.idxOf_getElem j hj]
  exact ⟨List.getElem_mem hj, earlier⟩

theorem entries_eq_keys_map {edit : EditSet} (distinct : edit.keys.Nodup) :
    (edit.entries.map fun entry => (entry.1, some entry.2)) =
      edit.keys.map fun field => (field, edit.get? field) := by
  rw [keys, List.map_map]
  refine List.map_congr_left fun entry there => ?_
  have found : edit.get? entry.1 = some entry.2 := (lookup_eq_some_iff distinct).2 there
  rw [Function.comp_apply, found]

theorem eq_of_keys_of_get? {first second : EditSet} (distinct : first.keys.Nodup)
    (fields : first.keys = second.keys) (values : ∀ field, first.get? field = second.get? field) :
    first = second := by
  have pairs : (first.entries.map fun entry => (entry.1, some entry.2)) =
      second.entries.map fun entry => (entry.1, some entry.2) := by
    rw [entries_eq_keys_map distinct, entries_eq_keys_map (fields ▸ distinct), fields]
    exact List.map_congr_left fun field _ => by rw [values field]
  have injective : Function.Injective fun entry : String × Json => (entry.1, some entry.2) := by
    rintro ⟨key, value⟩ ⟨key', value'⟩ same
    simpa using same
  obtain ⟨entries⟩ := first
  obtain ⟨entries'⟩ := second
  exact congrArg EditSet.mk (List.map_injective_iff.2 injective pairs)

theorem mem_keys_iff_get? {edit : EditSet} {field : String} :
    field ∈ edit.keys ↔ (edit.get? field).isSome := by
  obtain ⟨entries⟩ := edit
  rw [keys, get?, lookup_eq_find?]
  simp

theorem ofList_eq_iff (calls others : List (String × Json)) :
    ofList calls = ofList others ↔
      (∀ field, lastValue field calls = lastValue field others) ∧
        ∀ first second, FirstBefore calls first second ↔ FirstBefore others first second := by
  constructor
  · intro same
    refine ⟨fun field => ?_, fun first second => ?_⟩
    · rw [← get?_ofList_eq_lastValue, ← get?_ofList_eq_lastValue, same]
    · rw [firstBefore_iff, firstBefore_iff, same]
  · rintro ⟨values, order⟩
    have values' (field : String) : (ofList calls).get? field = (ofList others).get? field := by
      rw [get?_ofList_eq_lastValue, get?_ofList_eq_lastValue, values]
    have permuted : (ofList calls).keys.Perm (ofList others).keys := by
      rw [List.perm_ext_iff_of_nodup (nodup_keys_ofList calls) (nodup_keys_ofList others)]
      intro field
      rw [mem_keys_iff_get?, mem_keys_iff_get?, values' field]
    have ordered : (ofList others).keys.Pairwise (FirstBefore calls) :=
      (pairwise_keys_ofList others).imp fun before => (order _ _).2 before
    have fields : (ofList calls).keys = (ofList others).keys :=
      permuted.eq_of_pairwise (fun _ _ _ _ before after => absurd after before.asymm)
        (pairwise_keys_ofList calls) ordered
    exact eq_of_keys_of_get? (nodup_keys_ofList calls) fields values'

/-- What calls make of the empty edit set: each field at the place of the first call that set it,
with the value of the last one. -/
theorem ofList_determined (calls : List (String × Json)) :
    (ofList calls).keys.Nodup ∧
      (∀ field, field ∈ (ofList calls).keys ↔ field ∈ calls.map (·.1)) ∧
      (ofList calls).keys.Pairwise (FirstBefore calls) ∧
      (∀ field, (ofList calls).get? field = lastValue field calls) ∧
      ((ofList calls).entries.map fun entry => (entry.1, some entry.2)) =
        ((ofList calls).keys.map fun field => (field, lastValue field calls)) ∧
      ∀ others, ofList calls = ofList others ↔
        (∀ field, lastValue field calls = lastValue field others) ∧
          ∀ first second, FirstBefore calls first second ↔ FirstBefore others first second := by
  refine ⟨nodup_keys_ofList calls, fun _ => mem_keys_ofList, pairwise_keys_ofList calls,
    get?_ofList_eq_lastValue calls, ?_, ofList_eq_iff calls⟩
  rw [entries_eq_keys_map (nodup_keys_ofList calls)]
  exact List.map_congr_left fun field _ => by rw [get?_ofList_eq_lastValue]

/-- A field that is set again keeps its place. -/
example : (ofList [("a", .null), ("b", .boolean true), ("a", .boolean false)]).entries =
    [("a", .boolean false), ("b", .boolean true)] := rfl

end EditSet

end SignalExchange
