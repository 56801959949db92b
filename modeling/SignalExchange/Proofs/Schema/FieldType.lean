import SignalExchange.Proofs.Except
import SignalExchange.Schema.FieldType

/-! The values that a type accepts. -/

set_option autoImplicit false

namespace SignalExchange

namespace FieldType

variable {value : Json}

theorem text_accepts_iff : text.Accepts value ↔ ∃ word, value = .string word := by
  cases value <;> simp [Accepts, check]

theorem boolean_accepts_iff : boolean.Accepts value ↔ ∃ flag, value = .boolean flag := by
  cases value <;> simp [Accepts, check]

theorem integer_accepts_iff :
    integer.Accepts value ↔ ∃ n, value = .integer n ∧ Integer.InRange n := by
  cases value with
  | integer n => by_cases fits : Integer.InRange n <;> simp [Accepts, check, fits]
  | _ => simp [Accepts, check]

theorem choice_accepts_iff {among : Choice} :
    (choice among).Accepts value ↔ ∃ word ∈ among.members, value = .string word := by
  cases value with
  | string word => by_cases member : word ∈ among.members <;> simp [Accepts, check, member]
  | _ => simp [Accepts, check]

theorem optional_accepts_iff {inner : FieldType} :
    (optional inner).Accepts value ↔ value = .null ∨ inner.Accepts value := by
  cases value <;> simp [Accepts, check]

theorem list_accepts_iff {items : FieldType} :
    (list items).Accepts value ↔ ∃ values, value = .array values ∧
      ∀ item ∈ values, items.Accepts item := by
  cases value with
  | array values => simpa [Accepts, check] using @Except.forM_eq_ok _ _ items.check values
  | _ => simp [Accepts, check]

theorem required_required {type : FieldType}
    (single : ∀ inner, type.required ≠ .optional inner) :
    type.required.required = type.required := by
  cases required : type.required with
  | optional inner => exact absurd required (single inner)
  | _ => rfl

theorem accepts_of_required {type : FieldType} (fits : type.required.Accepts value) :
    type.Accepts value := by
  cases type with
  | optional inner => exact optional_accepts_iff.2 (.inr fits)
  | _ => exact fits

theorem required_accepts {type : FieldType} (fits : type.Accepts value) (given : value ≠ .null) :
    type.required.Accepts value := by
  cases type with
  | optional inner => exact (optional_accepts_iff.1 fits).resolve_left given
  | _ => exact fits

theorem accepts_array_iff {type items : FieldType} (list : type.required = .list items)
    {values : List Json} : type.Accepts (.array values) ↔ ∀ item ∈ values, items.Accepts item := by
  have same : type.Accepts (.array values) ↔ (FieldType.list items).Accepts (.array values) := by
    rw [← list]
    exact ⟨fun fits => required_accepts fits nofun, accepts_of_required⟩
  rw [same, list_accepts_iff]
  simp

end FieldType

end SignalExchange
