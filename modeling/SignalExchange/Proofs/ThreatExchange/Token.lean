import Mathlib.Data.List.TakeWhile
import SignalExchange.Text.CharSet
import SignalExchange.ThreatExchange.Token

/-! Which texts can be app tokens. -/

set_option autoImplicit false

namespace SignalExchange

theorem isDigit_iff {c : Char} : isDigit c = true ↔ '0' ≤ c ∧ c ≤ '9' := by simp [isDigit]

theorem isSecretPart_iff {c : Char} : isSecretPart c = true ↔
    ('a' ≤ c ∧ c ≤ 'z') ∨ ('A' ≤ c ∧ c ≤ 'Z') ∨ ('0' ≤ c ∧ c ≤ '9') ∨ c = '_' ∨ c = '-' := by
  simp [isSecretPart, isAsciiLetter, isDigit, or_assoc]

/-- Digits before the bar, and letters, digits and two signs behind it, at least one on each side. -/
def IsToken (application secret : List Char) : Prop :=
  application ≠ [] ∧ (∀ c ∈ application, '0' ≤ c ∧ c ≤ '9') ∧
    secret ≠ [] ∧ ∀ c ∈ secret, ('a' ≤ c ∧ c ≤ 'z') ∨ ('A' ≤ c ∧ c ≤ 'Z') ∨
      ('0' ≤ c ∧ c ≤ '9') ∨ c = '_' ∨ c = '-'

theorem isAppToken_of_bar {token : String} {application secret : List Char}
    (text : token.toList = application ++ '|' :: secret) (first : '|' ∉ application) :
    isAppToken token = true ↔ IsToken application secret := by
  have apart : ∀ c ∈ application, decide (c ≠ '|') = true := fun c member =>
    decide_eq_true fun same => first (same ▸ member)
  have before : token.toList.takeWhile (· ≠ '|') = application := by
    rw [text, List.takeWhile_append_of_pos apart, List.takeWhile_cons_of_neg (by simp),
      List.append_nil]
  have after : token.toList.dropWhile (· ≠ '|') = '|' :: secret := by
    rw [text, List.dropWhile_append_of_pos apart, List.dropWhile_cons_of_neg (by simp)]
  rw [isAppToken, before, after]
  simp only [Bool.and_eq_true, Bool.not_eq_true', List.isEmpty_eq_false_iff, List.all_eq_true,
    isDigit_iff, isSecretPart_iff, and_assoc]
  rfl

/-- The secret has no bar, so an app token has one and no more. -/
theorem isAppToken_iff {token : String} : isAppToken token = true ↔
    ∃ application secret, token.toList = application ++ '|' :: secret ∧
      IsToken application secret := by
  constructor
  · intro valid
    by_cases bar : '|' ∈ token.toList
    · obtain ⟨application, secret, text, first⟩ := List.eq_append_cons_of_mem bar
      exact ⟨application, secret, text, (isAppToken_of_bar text first).1 valid⟩
    · have none : token.toList.dropWhile (· ≠ '|') = [] :=
        List.dropWhile_eq_nil_iff.2 fun c member =>
          decide_eq_true fun same => bar (same ▸ member)
      rw [isAppToken, none] at valid
      cases valid
  · rintro ⟨application, secret, text, holds⟩
    have first : '|' ∉ application := fun member => absurd (holds.2.1 '|' member) (by decide)
    exact (isAppToken_of_bar text first).2 holds

/-- A token is more than white space, for the bar is none. -/
theorem isBlankText_of_isAppToken {token : String} (valid : isAppToken token = true) :
    isBlankText token = false := by
  obtain ⟨application, secret, text, -⟩ := isAppToken_iff.1 valid
  refine Bool.eq_false_iff.2 fun blank => ?_
  have bar := List.all_eq_true.1 blank '|' (by simp [text])
  cases bar

end SignalExchange
