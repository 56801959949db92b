import SignalExchange.Json.Value

/-! Assignments of values to fields, in the order in which the fields were first assigned. -/

set_option autoImplicit false

namespace SignalExchange

/-- Each field stands once. -/
structure EditSet where
  entries : List (String × Json)
  deriving BEq, Repr

namespace EditSet

def empty : EditSet := ⟨[]⟩

def lookup (field : String) : List (String × Json) → Option Json
  | [] => none
  | (key, value) :: rest => if key = field then some value else lookup field rest

/-- Overwrites the value of a key that is present and appends any other. -/
def assign (field : String) (value : Json) : List (String × Json) → List (String × Json)
  | [] => [(field, value)]
  | (key, old) :: rest =>
    if key = field then (key, value) :: rest else (key, old) :: assign field value rest

def set (edit : EditSet) (field : String) (value : Json) : EditSet :=
  ⟨assign field value edit.entries⟩

def get? (edit : EditSet) (field : String) : Option Json := lookup field edit.entries

def keys (edit : EditSet) : List String := edit.entries.map (·.1)

def ofList (entries : List (String × Json)) : EditSet :=
  entries.foldl (fun edit entry => edit.set entry.1 entry.2) empty

theorem lookup_assign (field other : String) (value : Json) (entries : List (String × Json)) :
    lookup other (assign field value entries) =
      if other = field then some value else lookup other entries := by
  induction entries with
  | nil => simp [assign, lookup, eq_comm]
  | cons entry rest ih =>
    obtain ⟨key, old⟩ := entry
    by_cases same : key = field
    · subst same
      by_cases h : other = key
      · simp [assign, lookup, h]
      · simp [assign, lookup, h, Ne.symm h]
    · by_cases h : key = other
      · subst h
        simp [assign, lookup, same]
      · simp [assign, lookup, same, h, ih]

@[simp] theorem get?_set_self (edit : EditSet) (field : String) (value : Json) :
    (edit.set field value).get? field = some value := by
  simp [get?, set, lookup_assign]

theorem get?_set_of_ne (edit : EditSet) {field other : String} (h : other ≠ field)
    (value : Json) : (edit.set field value).get? other = edit.get? other := by
  simp [get?, set, lookup_assign, h]

/-- A new key goes to the end; any other keeps its place. -/
theorem keys_set (edit : EditSet) (field : String) (value : Json) :
    (edit.set field value).keys =
      if field ∈ edit.keys then edit.keys else edit.keys ++ [field] := by
  obtain ⟨entries⟩ := edit
  simp only [keys, set]
  induction entries with
  | nil => simp [assign]
  | cons entry rest ih =>
    obtain ⟨key, old⟩ := entry
    by_cases same : key = field
    · simp [assign, same]
    · by_cases h : field ∈ rest.map (·.1)
      · simp [assign, same, Ne.symm same, ih, h]
      · simp [assign, same, Ne.symm same, ih, h]

end EditSet

end SignalExchange
