import SignalExchange.Proofs.Except
import SignalExchange.Proofs.Json.RoundTrip

/-! Texts that denote 64-bit integers.

A sign may stand before the digits. Every 64-bit integer is read back from its decimal text.
-/

set_option autoImplicit false

namespace SignalExchange

namespace Integer

open Json

-- As in a document, no partial sum is above the whole one.
theorem readDigits_eq {limit start : Nat} {overflow : IntegerFault} {digits : List Char}
    (all : ∀ c ∈ digits, isDigit c = true) (fits : onto start digits ≤ limit) :
    readDigits limit overflow start digits = .ok (onto start digits) := by
  induction digits generalizing start with
  | nil => rfl
  | cons c rest ih =>
    rw [List.forall_mem_cons] at all
    have next : onto (start * 10 + digitValue c) rest ≤ limit := fits
    have small : ¬limit < start * 10 + digitValue c := not_lt.2 (le_trans (le_onto _ rest) next)
    simp only [readDigits, all.1, if_true, small, if_false, ih all.2 next]
    rfl

theorem readDigits_eq_ok {limit start n : Nat} {overflow : IntegerFault} {digits : List Char}
    (atMost : start ≤ limit) :
    readDigits limit overflow start digits = .ok n ↔
      (∀ c ∈ digits, isDigit c = true) ∧ onto start digits = n ∧ n ≤ limit := by
  constructor
  · intro done
    induction digits generalizing start with
    | nil =>
      cases done
      exact ⟨by simp, rfl, atMost⟩
    | cons c rest ih =>
      rw [readDigits] at done
      split at done
      next digit =>
        split at done
        · cases done
        next fits =>
          obtain ⟨all, same, small⟩ := ih (not_lt.1 fits) done
          exact ⟨List.forall_mem_cons.2 ⟨digit, all⟩, same, small⟩
      next => cases done
  · intro holds
    obtain ⟨all, rfl, small⟩ := holds
    exact readDigits_eq all small

theorem inRange_natCast {m : Nat} : InRange m ↔ m ≤ greatest.natAbs := by
  simp only [InRange, least, greatest]
  omega

theorem inRange_neg {m : Nat} : InRange (-(m : Int)) ↔ m ≤ least.natAbs := by
  simp only [InRange, least, greatest]
  omega

/-- A text denotes an integer of 64 bits when it has an optional sign and digits, at least one. -/
inductive Denotes : List Char → Int → Prop where
  | unsigned {digits : List Char} (notEmpty : digits ≠ []) (all : ∀ c ∈ digits, isDigit c = true)
      (fits : InRange (digitsValue digits)) : Denotes digits (digitsValue digits)
  | plus {digits : List Char} (notEmpty : digits ≠ []) (all : ∀ c ∈ digits, isDigit c = true)
      (fits : InRange (digitsValue digits)) : Denotes ('+' :: digits) (digitsValue digits)
  | minus {digits : List Char} (notEmpty : digits ≠ []) (all : ∀ c ∈ digits, isDigit c = true)
      (fits : InRange (-(digitsValue digits : Int))) :
      Denotes ('-' :: digits) (-(digitsValue digits : Int))

theorem map_readDigits_eq_ok {limit : Nat} {overflow : IntegerFault} {digits : List Char}
    {n : Int} {f : Int → Int} :
    ((do let m ← readDigits limit overflow 0 digits; return (m : Int)).map f) = .ok n ↔
      (∀ c ∈ digits, isDigit c = true) ∧ digitsValue digits ≤ limit ∧ f (digitsValue digits) = n := by
  rw [Except.map_eq_ok]
  constructor
  · intro done
    obtain ⟨m, lifted, rfl⟩ := done
    obtain ⟨k, reads, same⟩ := Except.bind_eq_ok.1 lifted
    cases same
    obtain ⟨all, rfl, small⟩ := (readDigits_eq_ok (Nat.zero_le limit)).1 reads
    exact ⟨all, small, rfl⟩
  · intro holds
    obtain ⟨all, small, rfl⟩ := holds
    have reads : readDigits limit overflow 0 digits = .ok (digitsValue digits) :=
      readDigits_eq all small
    exact ⟨_, by rw [reads, Except.ok_bind, Except.pure_eq], rfl⟩

theorem read_eq_ok_iff {text : List Char} {n : Int} : read text = .ok n ↔ Denotes text n := by
  constructor
  · intro done
    unfold read at done
    split at done
    · cases done
    · cases done
    · cases done
    next digits notEmpty =>
      obtain ⟨all, small, rfl⟩ := map_readDigits_eq_ok.1 done
      exact .minus notEmpty all (inRange_neg.2 small)
    next digits notEmpty =>
      obtain ⟨all, small, rfl⟩ := map_readDigits_eq_ok.1 done
      exact .plus notEmpty all (inRange_natCast.2 small)
    next notEmpty _ _ _ _ =>
      obtain ⟨all, small, rfl⟩ := map_readDigits_eq_ok.1 done
      exact .unsigned notEmpty all (inRange_natCast.2 small)
  · intro denotes
    cases denotes with
    | unsigned notEmpty all fits =>
      obtain ⟨c, rest, rfl⟩ := List.exists_cons_of_ne_nil notEmpty
      have digit := all c List.mem_cons_self
      have notMinus : c ≠ '-' := ne_of_isDigit digit (by decide)
      have notPlus : c ≠ '+' := ne_of_isDigit digit (by decide)
      -- A digit is no sign, so the digits are the whole text.
      unfold read
      split
      next none => cases none
      next minus => exact absurd (List.cons.inj minus).1 notMinus
      next plus => exact absurd (List.cons.inj plus).1 notPlus
      next minus => exact absurd (List.cons.inj minus).1 notMinus
      next plus => exact absurd (List.cons.inj plus).1 notPlus
      next => exact map_readDigits_eq_ok.2 ⟨all, inRange_natCast.1 fits, rfl⟩
    | plus notEmpty all fits =>
      obtain ⟨c, rest, rfl⟩ := List.exists_cons_of_ne_nil notEmpty
      exact map_readDigits_eq_ok.2 ⟨all, inRange_natCast.1 fits, rfl⟩
    | minus notEmpty all fits =>
      obtain ⟨c, rest, rfl⟩ := List.exists_cons_of_ne_nil notEmpty
      exact map_readDigits_eq_ok.2 ⟨all, inRange_neg.1 fits, rfl⟩

theorem Denotes.inRange {text : List Char} {n : Int} (denotes : Denotes text n) : InRange n := by
  cases denotes <;> assumption

theorem inRange_of_read {text : List Char} {n : Int} (done : read text = .ok n) : InRange n :=
  (read_eq_ok_iff.1 done).inRange

theorem denotes_text {n : Int} (fits : InRange n) : Denotes (text n) n := by
  have notEmpty : Nat.toDigits 10 n.natAbs ≠ [] := Nat.toDigits_ne_nil
  have all : ∀ c ∈ Nat.toDigits 10 n.natAbs, isDigit c = true := isDigit_of_mem_toDigits
  have value : digitsValue (Nat.toDigits 10 n.natAbs) = n.natAbs := onto_toDigits n.natAbs
  unfold text
  split
  next negative =>
    have same : -(digitsValue (Nat.toDigits 10 n.natAbs) : Int) = n := by omega
    have denotes := Denotes.minus notEmpty all (by rwa [same])
    rwa [same] at denotes
  next notNegative =>
    have same : (digitsValue (Nat.toDigits 10 n.natAbs) : Int) = n := by omega
    have denotes := Denotes.unsigned notEmpty all (by rwa [same])
    rwa [same] at denotes

theorem read_text {n : Int} (fits : InRange n) : read (text n) = .ok n :=
  read_eq_ok_iff.2 (denotes_text fits)

end Integer

end SignalExchange
