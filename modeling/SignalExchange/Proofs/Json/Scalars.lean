import Mathlib.Data.Char
import Mathlib.Tactic.SplitIfs
import SignalExchange.Json.Printer
import SignalExchange.Json.Reader

/-! Reading back the texts of integers and strings.

The digits of an integer are read up to the first character that cannot go on with a number, and
the escapes of a string up to its closing quote.
-/

set_option autoImplicit false

namespace SignalExchange

theorem isDigit_eq (c : Char) : isDigit c = c.isDigit := by
  simp [isDigit, Char.isDigit, Char.le_def, UInt32.le_iff_toNat_le]

namespace Json

/-! Integers -/

/-- A number may go on with this character. -/
def goesOn (c : Char) : Bool := isDigit c || c = '.' || c = 'e' || c = 'E'

/-- A number ends before this text. -/
def EndsNumber (rest : List Char) : Prop := ∀ c ∈ rest.head?, goesOn c = false

theorem endsNumber_nil : EndsNumber [] := by simp [EndsNumber]

theorem endsNumber_cons {c : Char} (stops : goesOn c = false) (rest : List Char) :
    EndsNumber (c :: rest) := by simpa [EndsNumber] using stops

theorem digitRun_of_stops {digits rest : List Char} (all : ∀ c ∈ digits, isDigit c = true)
    (stops : ∀ c ∈ rest.head?, isDigit c = false) : digitRun (digits ++ rest) = (digits, rest) := by
  have none : rest.takeWhile isDigit = [] ∧ rest.dropWhile isDigit = rest := by
    cases rest with
    | nil => simp
    | cons c more => simp [stops c rfl]
  simp [digitRun, List.takeWhile_append_of_pos all, List.dropWhile_append_of_pos all, none]

theorem digitRun_append {digits rest : List Char} (all : ∀ c ∈ digits, isDigit c = true)
    (ends : EndsNumber rest) : digitRun (digits ++ rest) = (digits, rest) := by
  refine digitRun_of_stops all fun c first => ?_
  have stops := ends c first
  simp only [goesOn, Bool.or_eq_false_iff] at stops
  exact stops.1.1.1

/-- The number that digits denote behind those already read. -/
def onto (start : Nat) (digits : List Char) : Nat :=
  digits.foldl (fun total c => total * 10 + digitValue c) start

theorem le_onto (start : Nat) (digits : List Char) : start ≤ onto start digits := by
  induction digits generalizing start with
  | nil => exact le_refl start
  | cons c rest ih => exact le_trans (by omega) (ih (start * 10 + digitValue c))

-- No partial sum is above the whole one, so the limit is never passed on the way.
theorem gather_eq {start : Nat} {digits : List Char}
    (fits : onto start digits ≤ significandLimit) :
    gather start digits = (onto start digits, digits.length) := by
  induction digits generalizing start with
  | nil => rfl
  | cons c rest ih =>
    have next : onto (start * 10 + digitValue c) rest ≤ significandLimit := fits
    have small : ¬significandLimit < start * 10 + digitValue c :=
      not_lt.2 (le_trans (le_onto _ rest) next)
    simp only [gather, small, if_false, ih next]
    rfl

theorem onto_toDigits (n : Nat) : onto 0 (Nat.toDigits 10 n) = n := by
  have same := Nat.ofDigitChars_ten_toDigits (n := n)
  rw [Nat.ofDigitChars_eq_foldl] at same
  simpa [onto, digitValue, Nat.mul_comm] using same

theorem isDigit_of_mem_toDigits {n : Nat} : ∀ c ∈ Nat.toDigits 10 n, isDigit c = true :=
  fun c member => (isDigit_eq c).trans (Nat.isDigit_of_mem_toDigits (by omega) (by omega) member)

theorem toDigits_head {n : Nat} (positive : 0 < n) :
    ∃ c rest, Nat.toDigits 10 n = c :: rest ∧ c ≠ '0' := by
  -- All digits but the last are those of the tenth part, so the first one comes from there.
  induction n using Nat.strongRecOn with
  | ind n ih =>
    by_cases small : n < 10
    · refine ⟨n.digitChar, [], Nat.toDigits_of_lt_base small, fun zero => ?_⟩
      have value := congrArg Char.toNat zero
      rw [Nat.toNat_digitChar_of_lt_ten small] at value
      exact absurd value (by simp; omega)
    · obtain ⟨c, rest, digits, notZero⟩ := ih (n / 10) (by omega) (by omega)
      refine ⟨c, rest ++ [(n % 10).digitChar], ?_, notZero⟩
      rw [Nat.toDigits_of_base_le (by omega) (by omega), digits, List.cons_append]

theorem afterWhole_of_endsNumber {rest : List Char} (ends : EndsNumber rest) (negative : Bool)
    (significand : Nat) :
    afterWhole negative significand 0 rest = whole negative significand rest := by
  cases rest with
  | nil => rfl
  | cons c more =>
    have stops := ends c rfl
    simp only [goesOn, Bool.or_eq_false_iff, decide_eq_false_iff_not] at stops
    simp [afterWhole, stops.1.1.2, stops.1.2, stops.2]

theorem number_toDigits {n : Nat} (fits : n ≤ significandLimit) {rest : List Char}
    (ends : EndsNumber rest) (negative : Bool) :
    number negative (Nat.toDigits 10 n ++ rest) = whole negative n rest := by
  rcases Nat.eq_zero_or_pos n with rfl | positive
  · have none : digitRun rest = ([], rest) := @digitRun_append [] rest (by simp) ends
    simp [Nat.toDigits_zero, number, none, afterWhole_of_endsNumber ends]
  · obtain ⟨c, more, digits, notZero⟩ := toDigits_head positive
    have all := isDigit_of_mem_toDigits (n := n)
    -- A number with a leading zero would be read as the zero alone.
    have run : digitRun (c :: (more ++ rest)) = (c :: more, rest) := by
      simpa [digits] using digitRun_append all ends
    have value := @gather_eq 0 (Nat.toDigits 10 n) (by rwa [onto_toDigits])
    rw [onto_toDigits, digits] at value
    rw [digits] at all ⊢
    simp [number, all c, run, value, afterWhole_of_endsNumber ends]

/-! Strings -/

theorem hexValue_hexDigit : ∀ n < 16, hexValue (hexDigit n) = some n := by decide

theorem hexUnit_of_control {c : Char} (control : c.toNat < 32) :
    hexUnit '0' '0' (hexDigit (c.toNat / 16)) (hexDigit (c.toNat % 16)) = some c.toNat := by
  have zero : hexValue '0' = some 0 := by decide
  simp only [hexUnit, zero, hexValue_hexDigit _ (by omega : c.toNat / 16 < 16),
    hexValue_hexDigit _ (by omega : c.toNat % 16 < 16), Option.pure_def, Option.bind_eq_bind,
    Option.bind_some]
  exact congrArg some (by omega)

theorem stringBody_escape (c : Char) (rest : List Char) :
    stringBody (escape c ++ rest) = (stringBody rest).map (prepend c) := by
  unfold escape
  split_ifs with quote backslash newline return_ tab backspace feed control
  -- What is left are the other control characters and those that stand for themselves.
  all_goals try (subst c; simp [stringBody, simpleEscape])
  · have leading : isLeading c.toNat = false := by simp [isLeading]; omega
    have trailing : isTrailing c.toNat = false := by simp [isTrailing]; omega
    simp [stringBody, hexUnit_of_control control, leading, trailing]
  · simp [stringBody, backslash, control]

theorem stringBody_print (text rest : List Char) :
    stringBody (text.flatMap escape ++ '"' :: rest) = .ok (text, rest) := by
  induction text with
  | nil => simp [stringBody]
  | cons c more ih =>
    rw [List.flatMap_cons, List.append_assoc, stringBody_escape, ih]
    rfl

theorem readString_print (text : String) (rest : List Char) :
    readString (text.toList.flatMap escape ++ '"' :: rest) = .ok (text, rest) := by
  rw [readString, stringBody_print]
  simp [Except.map]

end Json

end SignalExchange
