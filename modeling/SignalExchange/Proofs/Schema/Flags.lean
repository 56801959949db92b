import SignalExchange.Proofs.Schema.WellFormed

/-! The flags of fields.

A flag is the name of its field with hyphens for underscores. Names hold no hyphens, so flags of
different fields differ.
-/

set_option autoImplicit false

namespace SignalExchange

def flagPart (c : Char) : Char := if c = '_' then '-' else c

def fieldPart (c : Char) : Char := if c = '-' then '_' else c

theorem flagName_toList (name : String) : (flagName name).toList = name.toList.map flagPart := by
  rw [flagName, String.toList_ofList]
  rfl

theorem isNamePart_of_isFieldName {name : String} (named : isFieldName name = true) :
    ∀ c ∈ name.toList, isNamePart c = true := by
  unfold isFieldName at named
  split at named
  · cases named
  next c rest spelled =>
    rw [Bool.and_eq_true, List.all_eq_true] at named
    rw [spelled, List.forall_mem_cons]
    exact ⟨by simp [isNamePart, named.1], named.2⟩

theorem fieldPart_flagPart {c : Char} (part : isNamePart c = true) :
    fieldPart (flagPart c) = c := by
  have noHyphen : isNamePart '-' = false := by decide
  unfold flagPart
  split
  next isScore => exact isScore.symm
  next =>
    -- A hyphen is no part of a name, so every hyphen of a flag was an underscore.
    refine if_neg fun isHyphen => ?_
    rw [isHyphen, noHyphen] at part
    cases part

/-- The name of a field can be told from its flag. -/
theorem map_fieldPart_flagName {name : String} (named : isFieldName name = true) :
    (flagName name).toList.map fieldPart = name.toList := by
  rw [flagName_toList, List.map_map]
  refine (List.map_congr_left fun c member => ?_).trans (List.map_id name.toList)
  exact fieldPart_flagPart (isNamePart_of_isFieldName named c member)

theorem eq_of_flagName_eq {name other : String} (left : isFieldName name = true)
    (right : isFieldName other = true) (same : flagName name = flagName other) : name = other := by
  apply String.toList_injective
  rw [← map_fieldPart_flagName left, same, map_fieldPart_flagName right]

theorem nodup_map_flagName {names : List String} (distinct : names.Nodup)
    (named : ∀ name ∈ names, isFieldName name = true) : (names.map flagName).Nodup :=
  distinct.map_on fun name member other also same =>
    eq_of_flagName_eq (named name member) (named other also) same

theorem equals_notMem_flagName {name : String} (named : isFieldName name = true) :
    '=' ∉ (flagName name).toList := by
  rw [flagName_toList]
  intro member
  obtain ⟨c, inName, same⟩ := List.mem_map.1 member
  have part := isNamePart_of_isFieldName named c inName
  unfold flagPart at same
  split at same
  · cases same
  · rw [same] at part
    cases part

end SignalExchange
