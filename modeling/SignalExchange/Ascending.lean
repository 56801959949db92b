/-! Association lists whose keys ascend strictly in byte order.

Objects of a document and tables of the database are kept in this form, so a finite map has
one representation. Keys are compared by code point, which orders UTF-8 texts as their bytes do.
-/

set_option autoImplicit false

namespace SignalExchange

/-- Every key is below all keys after it. -/
def Ascending {α : Type} (entries : List (String × α)) : Prop :=
  entries.Pairwise fun a b => a.1 < b.1

namespace Ascending

variable {α : Type}

def find? (key : String) : List (String × α) → Option α
  | [] => none
  | (k, value) :: rest => if k = key then some value else find? key rest

/-- Overwrites the value of a key that is present and keeps the order otherwise. -/
def insert (key : String) (value : α) : List (String × α) → List (String × α)
  | [] => [(key, value)]
  | (k, v) :: rest =>
    if key = k then (key, value) :: rest
    else if key < k then (key, value) :: (k, v) :: rest
    else (k, v) :: insert key value rest

def erase (key : String) : List (String × α) → List (String × α)
  | [] => []
  | (k, v) :: rest => if k = key then rest else (k, v) :: erase key rest

/-- The last value of a key wins. -/
def ofList (entries : List (String × α)) : List (String × α) :=
  entries.foldl (fun map entry => insert entry.1 entry.2 map) []

@[simp] theorem find?_nil (key : String) : find? key ([] : List (String × α)) = none := rfl

@[simp] theorem find?_insert_self (key : String) (value : α) (map : List (String × α)) :
    find? key (insert key value map) = some value := by
  induction map with
  | nil => simp [insert, find?]
  | cons entry rest ih =>
    obtain ⟨k, v⟩ := entry
    by_cases same : key = k
    · simp [insert, same, find?]
    · by_cases below : key < k
      · simp [insert, same, below, find?]
      · simp [insert, same, below, find?, ih, Ne.symm same]

theorem find?_insert_of_ne {key other : String} (h : other ≠ key) (value : α)
    (map : List (String × α)) : find? other (insert key value map) = find? other map := by
  induction map with
  | nil => simp [insert, find?, h.symm]
  | cons entry rest ih =>
    obtain ⟨k, v⟩ := entry
    by_cases same : key = k
    · subst same
      simp [insert, find?, h.symm]
    · by_cases below : key < k
      · simp [insert, same, below, find?, h.symm]
      · simp [insert, same, below, find?, ih]

theorem nil : Ascending ([] : List (String × α)) := List.Pairwise.nil

theorem cons_iff {key : String} {value : α} {rest : List (String × α)} :
    Ascending ((key, value) :: rest) ↔
      (∀ entry ∈ rest, key < entry.1) ∧ Ascending rest := List.pairwise_cons

theorem mem_insert {key : String} {value : α} {map : List (String × α)} {entry : String × α}
    (member : entry ∈ insert key value map) : entry = (key, value) ∨ entry ∈ map := by
  induction map with
  | nil => exact .inl (List.mem_singleton.1 member)
  | cons head rest ih =>
    obtain ⟨k, v⟩ := head
    rw [insert] at member
    split at member
    · rcases List.mem_cons.1 member with same | inRest
      · exact .inl same
      · exact .inr (List.mem_cons_of_mem _ inRest)
    · split at member
      · exact List.mem_cons.1 member
      · rcases List.mem_cons.1 member with same | inRest
        · exact .inr (same ▸ List.mem_cons_self)
        · exact (ih inRest).imp_right (List.mem_cons_of_mem _)

theorem insert_ascending {map : List (String × α)} (ascending : Ascending map) (key : String)
    (value : α) : Ascending (insert key value map) := by
  induction map with
  | nil => exact List.pairwise_singleton _ _
  | cons head rest ih =>
    obtain ⟨k, v⟩ := head
    obtain ⟨above, ascendingRest⟩ := cons_iff.1 ascending
    rw [insert]
    split
    next same =>
      subst same
      exact cons_iff.2 ⟨above, ascendingRest⟩
    next differs =>
      split
      next below =>
        refine cons_iff.2 ⟨fun entry member => ?_, ascending⟩
        rcases List.mem_cons.1 member with rfl | inRest
        · exact below
        · exact String.lt_trans below (above entry inRest)
      next notBelow =>
        have after : k < key := Decidable.byContradiction fun notAfter =>
          differs (String.le_antisymm (String.not_lt.1 notAfter) (String.not_lt.1 notBelow))
        refine cons_iff.2 ⟨fun entry member => ?_, ih ascendingRest⟩
        rcases mem_insert member with rfl | inRest
        · exact after
        · exact above entry inRest

theorem erase_sublist (key : String) (map : List (String × α)) :
    (erase key map).Sublist map := by
  induction map with
  | nil => exact .slnil
  | cons head rest ih =>
    rw [erase]
    split
    · exact List.sublist_cons_self _ _
    · exact ih.cons_cons _

theorem erase_ascending {map : List (String × α)} (ascending : Ascending map) (key : String) :
    Ascending (erase key map) := ascending.sublist (erase_sublist key map)

theorem foldl_insert_ascending {map : List (String × α)} (ascending : Ascending map)
    (entries : List (String × α)) :
    Ascending (entries.foldl (fun map entry => insert entry.1 entry.2 map) map) := by
  induction entries generalizing map with
  | nil => exact ascending
  | cons entry rest ih => exact ih (insert_ascending ascending entry.1 entry.2)

theorem ofList_ascending (entries : List (String × α)) : Ascending (ofList entries) :=
  foldl_insert_ascending nil entries

end Ascending

/-- A map with its entries in the order of their keys. -/
@[ext]
structure AscendingMap (α : Type) where
  entries : List (String × α)
  ascending : Ascending entries
  deriving Repr

namespace AscendingMap

variable {α : Type}

instance [BEq α] : BEq (AscendingMap α) := ⟨fun first second => first.entries == second.entries⟩

def empty : AscendingMap α := ⟨[], Ascending.nil⟩

def find? (map : AscendingMap α) (key : String) : Option α := Ascending.find? key map.entries

def insert (map : AscendingMap α) (key : String) (value : α) : AscendingMap α :=
  ⟨Ascending.insert key value map.entries, Ascending.insert_ascending map.ascending key value⟩

def erase (map : AscendingMap α) (key : String) : AscendingMap α :=
  ⟨Ascending.erase key map.entries, Ascending.erase_ascending map.ascending key⟩

def ofList (entries : List (String × α)) : AscendingMap α :=
  ⟨Ascending.ofList entries, Ascending.ofList_ascending entries⟩

end AscendingMap

end SignalExchange
