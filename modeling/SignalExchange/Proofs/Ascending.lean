import Mathlib.Data.List.Nodup
import Mathlib.Data.String.Basic
import Mathlib.Order.Basic
import SignalExchange.Ascending

/-! Laws of ascending association lists.

Writing and erasing keep the order, a lookup gives exactly the entries of the list and so decides it,
and entries that ascend behind those of a list go to its end when they are written one after another.
-/

set_option autoImplicit false

namespace SignalExchange

namespace Ascending

variable {α : Type}

theorem nodup_keys {map : List (String × α)} (ascending : Ascending map) :
    (map.map (·.1)).Nodup := by
  rw [List.Nodup, List.pairwise_map]
  exact ascending.imp ne_of_lt

theorem nodup {map : List (String × α)} (ascending : Ascending map) : map.Nodup :=
  (nodup_keys ascending).of_map _

theorem mem_keys_insert {key other : String} {value : α} {map : List (String × α)} :
    other ∈ (insert key value map).map (·.1) ↔ other = key ∨ other ∈ map.map (·.1) := by
  induction map with
  | nil => simp [insert]
  | cons head rest ih =>
    obtain ⟨k, v⟩ := head
    rw [insert]
    split
    next same => simp [same]
    next =>
      split
      next => simp
      next =>
        rw [List.map_cons, List.mem_cons, ih, List.map_cons, List.mem_cons]
        exact or_left_comm

theorem insert_perm_of_free {key : String} {map : List (String × α)}
    (free : find? key map = none) (value : α) :
    (insert key value map).Perm ((key, value) :: map) := by
  induction map with
  | nil => exact .refl _
  | cons entry rest ih =>
    obtain ⟨k, v⟩ := entry
    rw [find?] at free
    split at free
    · cases free
    next differs =>
      rw [insert, if_neg (Ne.symm differs)]
      split
      · exact .refl _
      · exact ((ih free).cons _).trans (.swap ..)

/-- In an ascending list no entry hides another, so a lookup finds every one. -/
theorem find?_eq_some_iff {map : List (String × α)} (ascending : Ascending map) (key : String)
    (value : α) : find? key map = some value ↔ (key, value) ∈ map := by
  induction map with
  | nil => simp
  | cons head rest ih =>
    obtain ⟨k, v⟩ := head
    obtain ⟨above, ascendingRest⟩ := cons_iff.1 ascending
    by_cases same : k = key
    · subst same
      have absent : (k, value) ∉ rest := fun member => lt_irrefl k (above _ member)
      simp [find?, absent, eq_comm]
    · simp [find?, same, Ne.symm same, ih ascendingRest]

theorem mem_keys_iff {map : List (String × α)} (ascending : Ascending map) {key : String} :
    key ∈ map.map (·.1) ↔ ∃ value, find? key map = some value := by
  simp only [List.mem_map, find?_eq_some_iff ascending, Prod.exists, exists_and_right,
    exists_eq_right]

/-- A finite map has one ascending list. -/
theorem eq_of_find? {first second : List (String × α)} (left : Ascending first)
    (right : Ascending second) (same : ∀ key, find? key first = find? key second) :
    first = second := by
  have perm : first.Perm second := by
    refine (List.perm_ext_iff_of_nodup left.nodup right.nodup).2 fun entry => ?_
    rw [← find?_eq_some_iff left, same, find?_eq_some_iff right]
  exact perm.eq_of_pairwise (fun _ _ _ _ below above => absurd below (lt_asymm above)) left right

theorem find?_eq_none_of_below {key : String} {map : List (String × α)}
    (below : ∀ entry ∈ map, key < entry.1) : find? key map = none := by
  induction map with
  | nil => rfl
  | cons head rest ih =>
    have differs : head.1 ≠ key := fun same =>
      lt_irrefl key (same ▸ below head List.mem_cons_self)
    simp only [find?, differs, if_false]
    exact ih fun entry member => below entry (List.mem_cons_of_mem _ member)

theorem find?_erase_self {map : List (String × α)} (ascending : Ascending map) (key : String) :
    find? key (erase key map) = none := by
  induction map with
  | nil => rfl
  | cons head rest ih =>
    obtain ⟨k, v⟩ := head
    obtain ⟨above, ascendingRest⟩ := cons_iff.1 ascending
    by_cases same : k = key
    · subst same
      simpa [erase] using find?_eq_none_of_below above
    · simpa [erase, find?, same] using ih ascendingRest

theorem find?_erase_of_ne {key other : String} (differs : other ≠ key)
    (map : List (String × α)) : find? other (erase key map) = find? other map := by
  induction map with
  | nil => rfl
  | cons head rest ih =>
    obtain ⟨k, v⟩ := head
    by_cases same : k = key
    · subst same
      simp [erase, find?, differs.symm]
    · simp [erase, find?, same, ih]

theorem mem_keys_erase {map : List (String × α)} (ascending : Ascending map)
    {key other : String} :
    other ∈ (erase key map).map (·.1) ↔ other ≠ key ∧ other ∈ map.map (·.1) := by
  rw [mem_keys_iff (erase_ascending ascending key), mem_keys_iff ascending]
  by_cases same : other = key
  · simp [same, find?_erase_self ascending]
  · simp [same, find?_erase_of_ne same]

theorem insert_of_above {key : String} {map : List (String × α)}
    (above : ∀ entry ∈ map, entry.1 < key) (value : α) :
    insert key value map = map ++ [(key, value)] := by
  induction map with
  | nil => rfl
  | cons head rest ih =>
    obtain ⟨k, v⟩ := head
    have after : k < key := above _ List.mem_cons_self
    have rest := ih fun entry member => above entry (List.mem_cons_of_mem _ member)
    simp [insert, after.ne', not_lt_of_gt after, rest]

theorem foldl_insert {map entries : List (String × α)} (ascending : Ascending (map ++ entries)) :
    entries.foldl (fun map entry => insert entry.1 entry.2 map) map = map ++ entries := by
  -- The list in front grows with each step, so it is general in the induction.
  induction entries generalizing map with
  | nil => simp
  | cons entry rest ih =>
    have above : ∀ earlier ∈ map, earlier.1 < entry.1 := fun earlier member =>
      (List.pairwise_append.1 ascending).2.2 earlier member entry List.mem_cons_self
    rw [List.foldl_cons, insert_of_above above, ih (by simpa using ascending)]
    simp

theorem insert_insert (key : String) (first last : α) (map : List (String × α)) :
    insert key last (insert key first map) = insert key last map := by
  induction map with
  | nil => simp [insert]
  | cons entry rest ih =>
    obtain ⟨k, v⟩ := entry
    by_cases same : key = k
    · simp [insert, same]
    · by_cases below : key < k
      · simp [insert, same, below]
      · simp [insert, same, below, ih]

theorem insert_comm_of_lt {key other : String} (below : key < other) (value second : α)
    (map : List (String × α)) :
    insert other second (insert key value map) = insert key value (insert other second map) := by
  induction map with
  | nil => simp [insert, below, below.ne, below.ne', not_lt_of_gt below]
  | cons entry rest ih =>
    obtain ⟨k, v⟩ := entry
    rcases lt_trichotomy key k with before | rfl | behind
    · rcases lt_trichotomy other k with first | rfl | last
      · simp [insert, below, below.ne, below.ne', not_lt_of_gt below, before, before.ne, first,
          first.ne]
      · simp [insert, below, below.ne, below.ne', not_lt_of_gt below]
      · simp [insert, below.ne', not_lt_of_gt below, before, before.ne, last.ne',
          not_lt_of_gt last]
    · simp [insert, below.ne', not_lt_of_gt below]
    · have beyond := behind.trans below
      simp [insert, behind.ne', not_lt_of_gt behind, beyond.ne', not_lt_of_gt beyond, ih]

theorem insert_comm {key other : String} (differs : key ≠ other) (value second : α)
    (map : List (String × α)) :
    insert other second (insert key value map) = insert key value (insert other second map) := by
  rcases lt_or_gt_of_ne differs with below | above
  · exact insert_comm_of_lt below value second map
  · exact (insert_comm_of_lt above second value map).symm

end Ascending

namespace AscendingMap

variable {α : Type} {map : AscendingMap α} {key other : String} {value : α}

@[simp] theorem entries_empty : (empty : AscendingMap α).entries = [] := rfl

@[simp] theorem entries_insert :
    (map.insert key value).entries = Ascending.insert key value map.entries := rfl

theorem find?_eq_some_iff : map.find? key = some value ↔ (key, value) ∈ map.entries :=
  Ascending.find?_eq_some_iff map.ascending key value

theorem eq_of_find? {first second : AscendingMap α}
    (same : ∀ key, first.find? key = second.find? key) : first = second :=
  AscendingMap.ext (Ascending.eq_of_find? first.ascending second.ascending same)

@[simp] theorem find?_insert_self : (map.insert key value).find? key = some value :=
  Ascending.find?_insert_self key value map.entries

theorem find?_insert_of_ne (differs : other ≠ key) :
    (map.insert key value).find? other = map.find? other :=
  Ascending.find?_insert_of_ne differs value map.entries

theorem foldl_insert_entries (map : AscendingMap α) :
    map.entries.foldl (fun held entry => held.insert entry.1 entry.2) empty = map := by
  have same (entries : List (String × α)) (held : AscendingMap α) :
      (entries.foldl (fun held entry => held.insert entry.1 entry.2) held).entries =
        entries.foldl (fun held entry => Ascending.insert entry.1 entry.2 held) held.entries := by
    induction entries generalizing held with
    | nil => rfl
    | cons entry rest ih => exact ih _
  refine AscendingMap.ext ((same map.entries empty).trans ?_)
  exact Ascending.foldl_insert (by simpa using map.ascending)

theorem find?_erase_self : (map.erase key).find? key = none :=
  Ascending.find?_erase_self map.ascending key

theorem find?_erase_of_ne (differs : other ≠ key) :
    (map.erase key).find? other = map.find? other :=
  Ascending.find?_erase_of_ne differs map.entries

theorem insert_insert (first last : α) :
    (map.insert key first).insert key last = map.insert key last :=
  AscendingMap.ext (Ascending.insert_insert key first last map.entries)

theorem insert_comm (differs : key ≠ other) (value second : α) :
    (map.insert key value).insert other second = (map.insert other second).insert key value :=
  AscendingMap.ext (Ascending.insert_comm differs value second map.entries)

end AscendingMap

end SignalExchange
