import SignalExchange.Json.Printer
import SignalExchange.Number.Decimal
import SignalExchange.Proofs.Json.Scalars
import SignalExchange.Proofs.Number.Shortest

/-! The texts of doubles.

However a decimal is laid out, its text denotes just this decimal. It rounds to the number that was
written, so the text of a double tells it from all others.
-/

set_option autoImplicit false

namespace SignalExchange

open Json (onto digitRun_of_stops isDigit_of_mem_toDigits onto_toDigits doubleLayout)

/-! Runs of digits -/

theorem onto_eq (start : ℕ) (digits : List Char) :
    onto start digits = start * 10 ^ digits.length + digitsValue digits := by
  induction digits using List.reverseRecOn with
  | nil => simp [onto, digitsValue]
  | append_singleton digits last ih =>
    have onto_concat : ∀ first, onto first (digits ++ [last]) =
        onto first digits * 10 + digitValue last := fun first => List.foldl_concat ..
    have value : digitsValue digits = onto 0 digits := rfl
    rw [show digitsValue (digits ++ [last]) = onto 0 (digits ++ [last]) from rfl, onto_concat,
      onto_concat, ih, value, List.length_append, List.length_singleton, pow_succ]
    ring

theorem digitsValue_append (digits more : List Char) :
    digitsValue (digits ++ more) = digitsValue digits * 10 ^ more.length + digitsValue more := by
  rw [← onto_eq]
  exact List.foldl_append

theorem digitsValue_zeros (n : ℕ) : digitsValue (DecimalLayout.zeros n) = 0 := by
  induction n with
  | zero => rfl
  | succ n ih => exact ih

theorem isDigit_zero : ∀ c ∈ ['0'], isDigit c = true := List.forall_mem_singleton.2 rfl

theorem isDigit_of_mem_zeros {n : ℕ} : ∀ c ∈ DecimalLayout.zeros n, isDigit c = true := by
  intro c member
  rw [List.eq_of_mem_replicate member]
  rfl

namespace Decimal

/-- The fraction that a decimal text without a sign denotes. -/
def valueOf (text : List Char) : ℚ :=
  digitsValue (mantissa text).1.digits *
    10 ^ ((exponent (mantissa text).2).getD 0 - ((mantissa text).1.decimals : ℤ))

theorem mantissa_point {whole decimals rest : List Char} (all : ∀ c ∈ whole, isDigit c = true)
    (all' : ∀ c ∈ decimals, isDigit c = true) (stops : ∀ c ∈ rest.head?, isDigit c = false) :
    mantissa (whole ++ '.' :: (decimals ++ rest)) =
      (⟨whole ++ decimals, decimals.length⟩, rest) := by
  have point : digitRun (whole ++ '.' :: (decimals ++ rest)) =
      (whole, '.' :: (decimals ++ rest)) := digitRun_of_stops all (by simp [isDigit])
  rw [mantissa, point]
  simp [digitRun_of_stops all' stops]

theorem mantissa_whole {whole rest : List Char} {c : Char} (all : ∀ c ∈ whole, isDigit c = true)
    (stops : isDigit c = false) (noPoint : c ≠ '.') :
    mantissa (whole ++ c :: rest) = (⟨whole, 0⟩, c :: rest) := by
  rw [mantissa, digitRun_of_stops all (by simpa using stops)]
  split
  next same => exact absurd (List.cons.inj (Prod.mk.inj same).2).1 noPoint
  next same =>
    cases same
    rfl

theorem valueOf_point {whole decimals : List Char} (all : ∀ c ∈ whole, isDigit c = true)
    (all' : ∀ c ∈ decimals, isDigit c = true) :
    valueOf (whole ++ '.' :: decimals) =
      digitsValue (whole ++ decimals) * 10 ^ (-(decimals.length : ℤ)) := by
  have parts := @mantissa_point whole decimals [] all all' (by simp)
  rw [List.append_nil] at parts
  simp [valueOf, parts, exponent]

theorem allDigits_toDigits (n : ℕ) : allDigits (Nat.toDigits 10 n) = some n := by
  have all : (Nat.toDigits 10 n).all isDigit = true :=
    List.all_eq_true.2 isDigit_of_mem_toDigits
  have value : digitsValue (Nat.toDigits 10 n) = n := onto_toDigits n
  have some : Nat.toDigits 10 n ≠ [] := Nat.toDigits_ne_nil
  simp [allDigits, some, all, value]

end Decimal

namespace DecimalLayout

open Decimal

variable {digits : List Char}

theorem length_zeros (n : ℕ) : (zeros n).length = n := List.length_replicate

/-! The point stands before all digits, among them, or after all of them. -/

theorem positional_before {point : ℤ} (before : point ≤ 0) :
    positional digits point = ['0'] ++ '.' :: (zeros (-point).toNat ++ digits) := if_pos before

theorem positional_among {point : ℤ} (after : ¬point ≤ 0) (short : point.toNat < digits.length) :
    positional digits point = digits.take point.toNat ++ '.' :: digits.drop point.toNat := by
  have some : digits.drop point.toNat ≠ [] := fun none =>
    absurd (List.drop_eq_nil_iff.1 none) (not_le.2 short)
  have noZeros : zeros (point.toNat - (digits.take point.toNat).length) = [] := by
    rw [List.length_take_of_le short.le, Nat.sub_self]
    rfl
  simp only [positional, after, some, noZeros, if_false, List.append_nil]

theorem positional_after {point : ℤ} (after : ¬point ≤ 0) (reached : digits.length ≤ point.toNat) :
    positional digits point = digits ++ zeros (point.toNat - digits.length) ++ '.' :: ['0'] := by
  simp only [positional, after, List.take_of_length_le reached, List.drop_eq_nil_of_le reached,
    if_false, if_true]

theorem valueOf_before (all : ∀ c ∈ digits, isDigit c = true) (n : ℕ) :
    valueOf (['0'] ++ '.' :: (zeros n ++ digits)) =
      digitsValue digits * 10 ^ (-((n + digits.length : ℕ) : ℤ)) := by
  have padded : ∀ c ∈ zeros n ++ digits, isDigit c = true := fun c member =>
    (List.mem_append.1 member).elim (isDigit_of_mem_zeros c) (all c)
  have zero : digitsValue ['0'] = 0 := rfl
  rw [valueOf_point isDigit_zero padded, digitsValue_append, digitsValue_append, digitsValue_zeros,
    zero, Nat.zero_mul, Nat.zero_mul, Nat.zero_add, Nat.zero_add, List.length_append, length_zeros]

theorem valueOf_after (all : ∀ c ∈ digits, isDigit c = true) (n : ℕ) :
    valueOf (digits ++ zeros n ++ '.' :: ['0']) = digitsValue digits * 10 ^ n := by
  have padded : ∀ c ∈ digits ++ zeros n, isDigit c = true := fun c member =>
    (List.mem_append.1 member).elim (all c) (isDigit_of_mem_zeros c)
  have zero : digitsValue ['0'] = 0 := rfl
  rw [valueOf_point padded isDigit_zero, digitsValue_append, digitsValue_append, digitsValue_zeros,
    zero, length_zeros, List.length_singleton]
  push_cast
  rw [zpow_neg, zpow_one]
  ring

theorem valueOf_positional (all : ∀ c ∈ digits, isDigit c = true) (point : ℤ) :
    valueOf (positional digits point) =
      digitsValue digits * 10 ^ (point - (digits.length : ℤ)) := by
  by_cases before : point ≤ 0
  · have places : -(((-point).toNat + digits.length : ℕ) : ℤ) = point - digits.length := by omega
    rw [positional_before before, valueOf_before all, places]
  · by_cases short : point.toNat < digits.length
    · have whole : ∀ c ∈ digits.take point.toNat, isDigit c = true := fun c member =>
        all c (List.mem_of_mem_take member)
      have decimals : ∀ c ∈ digits.drop point.toNat, isDigit c = true := fun c member =>
        all c (List.mem_of_mem_drop member)
      have places : -((digits.length - point.toNat : ℕ) : ℤ) = point - digits.length := by omega
      rw [positional_among before short, valueOf_point whole decimals, List.take_append_drop,
        List.length_drop, places]
    · have reached := not_lt.1 short
      have places : point - (digits.length : ℤ) = (point.toNat - digits.length : ℕ) := by omega
      rw [positional_after before reached, valueOf_after all, places, zpow_natCast]

/-- The mark of an exponent and what follows it. -/
def marked (power : ℤ) : List Char :=
  'e' :: ((if power < 0 then ['-'] else ['+']) ++ Nat.toDigits 10 power.natAbs)

theorem exponent_marked (power : ℤ) : exponent (marked power) = some power := by
  unfold marked
  split
  next negative => simp [exponent, allDigits_toDigits, abs_of_neg negative]
  next notNegative => simp [exponent, allDigits_toDigits, abs_of_nonneg (not_lt.1 notNegative)]

theorem scientific_one (digit : Char) (power : ℤ) :
    doubleLayout.scientific [digit] power = [digit] ++ marked power := rfl

theorem scientific_more (lead next : Char) (more : List Char) (power : ℤ) :
    doubleLayout.scientific (lead :: next :: more) power =
      [lead] ++ '.' :: (next :: more ++ marked power) := by
  simp [scientific, marked, doubleLayout]

theorem valueOf_scientific (all : ∀ c ∈ digits, isDigit c = true) (given : digits ≠ [])
    (power : ℤ) : valueOf (doubleLayout.scientific digits power) =
      digitsValue digits * 10 ^ (power + 1 - (digits.length : ℤ)) := by
  match digits, given with
  | [digit], _ =>
    rw [scientific_one, valueOf, marked, mantissa_whole all rfl (by decide), ← marked,
      exponent_marked]
    simp
  | lead :: next :: more, _ =>
    rw [List.forall_mem_cons] at all
    have stops : ∀ c ∈ (marked power).head?, isDigit c = false := by
      rintro c ⟨⟩
      rfl
    have parts := @mantissa_point [lead] _ _ (by simpa using all.1) all.2 stops
    rw [scientific_more, valueOf, parts, exponent_marked]
    simp only [Option.getD_some, List.singleton_append, List.length_cons]
    congr 2
    push_cast
    ring

/-! The characters of a number -/

/-- A digit, or one of the marks of a decimal. -/
def isPart (c : Char) : Bool := isDigit c || c ∈ ['.', 'e', '+', '-']

theorem isPart_of_isDigit {c : Char} (digit : isDigit c = true) : isPart c = true := by
  simp [isPart, digit]

/-- A text of parts of a number that starts with a digit and is no integer. -/
structure Fractional (text : List Char) : Prop where
  digit : ∃ c rest, text = c :: rest ∧ isDigit c = true
  parts : ∀ c ∈ text, isPart c = true
  mark : '.' ∈ text ∨ 'e' ∈ text

theorem positional_fractional (all : ∀ c ∈ digits, isDigit c = true) (given : digits ≠ [])
    (point : ℤ) : Fractional (positional digits point) := by
  have digit : ∀ c ∈ digits, isPart c = true := fun c member => isPart_of_isDigit (all c member)
  have zero : ∀ n, ∀ c ∈ zeros n, isPart c = true := fun n c member =>
    isPart_of_isDigit (isDigit_of_mem_zeros c member)
  have dot : isPart '.' = true := by decide
  rw [positional]
  split
  next before =>
    refine ⟨⟨'0', _, rfl, rfl⟩, ?_, .inl (by simp)⟩
    simp only [List.forall_mem_cons, List.forall_mem_append]
    exact ⟨by decide, dot, zero _, digit⟩
  next within =>
    refine ⟨?_, ?_, .inl (by simp)⟩
    · obtain ⟨c, more, rfl⟩ := List.exists_cons_of_ne_nil given
      obtain ⟨n, places⟩ : ∃ n, point.toNat = n + 1 := ⟨point.toNat - 1, by omega⟩
      rw [places, List.take_succ_cons]
      exact ⟨c, _, rfl, all c List.mem_cons_self⟩
    · simp only [List.forall_mem_append, List.forall_mem_cons]
      refine ⟨⟨fun c member => digit c (List.mem_of_mem_take member), zero _⟩, dot, ?_⟩
      split
      · exact List.forall_mem_singleton.2 rfl
      · exact fun c member => digit c (List.mem_of_mem_drop member)

theorem isPart_of_mem_marked (power : ℤ) : ∀ c ∈ marked power, isPart c = true := by
  have digits : ∀ c ∈ Nat.toDigits 10 power.natAbs, isPart c = true := fun c member =>
    isPart_of_isDigit (isDigit_of_mem_toDigits c member)
  unfold marked
  simp only [List.forall_mem_cons, List.forall_mem_append]
  refine ⟨rfl, ?_, digits⟩
  split <;> exact List.forall_mem_singleton.2 rfl

theorem scientific_fractional (all : ∀ c ∈ digits, isDigit c = true) (given : digits ≠ [])
    (power : ℤ) : Fractional (doubleLayout.scientific digits power) := by
  have digit : ∀ c ∈ digits, isPart c = true := fun c member => isPart_of_isDigit (all c member)
  have mark : 'e' ∈ marked power := List.mem_cons_self
  match digits, given with
  | [lead], _ =>
    rw [scientific_one]
    refine ⟨⟨lead, _, rfl, all lead List.mem_cons_self⟩, ?_, .inr (by simp [mark])⟩
    exact List.forall_mem_append.2 ⟨digit, isPart_of_mem_marked power⟩
  | lead :: next :: more, _ =>
    rw [scientific_more]
    refine ⟨⟨lead, _, rfl, all lead List.mem_cons_self⟩, ?_, .inl (by simp)⟩
    rw [List.forall_mem_cons] at digit
    simp only [List.forall_mem_append, List.forall_mem_cons, List.singleton_append] at digit ⊢
    exact ⟨digit.1, by decide, digit.2, isPart_of_mem_marked power⟩

end DecimalLayout

namespace Binary64

open Decimal DecimalLayout

variable {x y : Binary64}

def abs (x : Binary64) : Binary64 := { x with negative := false }

theorem write_eq (x : Binary64) : doubleLayout.write x =
    (if x.negative then ['-'] else []) ++ doubleLayout.write x.abs := by
  have zero : x.abs.isZero = x.isZero := rfl
  have decimal : x.abs.shortest = x.shortest := rfl
  have plain : x.abs.negative = false := rfl
  simp only [write, zero, decimal, plain, Bool.false_eq_true, if_false, List.nil_append]
  split <;> rfl

theorem write_abs (normal : x.Normal) : ∃ digits exponent, (∀ c ∈ digits, isDigit c = true) ∧
    digits ≠ [] ∧ x.Rounds (digitsValue digits * 10 ^ exponent) ∧
    (doubleLayout.write x.abs = positional digits (digits.length + exponent) ∨
      doubleLayout.write x.abs =
        doubleLayout.scientific digits (digits.length + exponent - 1)) := by
  by_cases zero : x.significand = 0
  -- Zero has no shortest decimal; its text is that of the single digit.
  · refine ⟨['0'], 0, isDigit_zero, List.cons_ne_nil _ _, ?_, .inl ?_⟩
    · have quarter := x.quarter_pos
      apply rounds_of_between
      · have below : 0 < x.quartersBelow := by
          unfold quartersBelow
          split <;> omega
        have below' : (0 : ℚ) < x.quartersBelow * x.quarter := by positivity
        simp [low, zero, digitsValue, digitValue, below']
      · simp [high, zero, digitsValue, digitValue, quarter]
    · have isZero : x.abs.isZero = true := by simpa [isZero, abs] using zero
      simp only [write, isZero, if_true]
      rfl
  · have value : digitsValue (Nat.toDigits 10 x.shortest.1) = x.shortest.1 :=
      onto_toDigits x.shortest.1
    refine ⟨Nat.toDigits 10 x.shortest.1, x.shortest.2, isDigit_of_mem_toDigits,
      Nat.toDigits_ne_nil, ?_, ?_⟩
    · rw [value]
      exact shortest_rounds normal zero
    · have nonzero : x.abs.isZero = false := by simpa [isZero, abs] using zero
      have decimal : x.abs.shortest = x.shortest := rfl
      have plain : x.abs.negative = false := rfl
      simp only [write, nonzero, decimal, plain, Bool.false_eq_true, if_false, List.nil_append]
      split
      · exact .inl rfl
      · exact .inr rfl

theorem rounds_write (normal : x.Normal) : x.Rounds (valueOf (doubleLayout.write x.abs)) := by
  obtain ⟨digits, exponent, all, given, rounds, positional | scientific⟩ := write_abs normal
  · rwa [positional, valueOf_positional all, add_sub_cancel_left]
  · rwa [scientific, valueOf_scientific all given, sub_add_cancel, add_sub_cancel_left]

theorem write_abs_fractional (normal : x.Normal) : Fractional (doubleLayout.write x.abs) := by
  obtain ⟨digits, exponent, all, given, -, positional | scientific⟩ := write_abs normal
  · rw [positional]
    exact positional_fractional all given _
  · rw [scientific]
    exact scientific_fractional all given _

theorem eq_of_write_eq (normal : x.Normal) (normal' : y.Normal)
    (same : doubleLayout.write x = doubleLayout.write y) : x = y := by
  obtain ⟨c, rest, text, digit⟩ := (write_abs_fractional normal).digit
  obtain ⟨d, rest', text', digit'⟩ := (write_abs_fractional normal').digit
  have minus : isDigit '-' = false := by decide
  -- A digit is no sign, so the signs agree and the rest of the texts too.
  have parts : x.negative = y.negative ∧
      doubleLayout.write x.abs = doubleLayout.write y.abs := by
    rw [write_eq x, write_eq y, text, text'] at same
    rw [text, text']
    cases negative : x.negative <;> cases negative' : y.negative <;>
      simp only [negative, negative', if_true, Bool.false_eq_true, if_false, List.nil_append,
        List.singleton_append, List.cons.injEq] at same
    · exact ⟨rfl, by rw [same.1, same.2]⟩
    · rw [same.1, minus] at digit
      cases digit
    · rw [← same.1, minus] at digit'
      cases digit'
    · exact ⟨rfl, by rw [same.2.1, same.2.2]⟩
  -- One text denotes one fraction, which cannot round to two doubles.
  have rounds := rounds_write normal
  rw [parts.2] at rounds
  obtain ⟨significand, exponent⟩ := eq_of_rounds normal normal' rounds (rounds_write normal')
  cases x
  cases y
  cases parts.1
  cases significand
  cases exponent
  rfl

end Binary64

end SignalExchange
