import SignalExchange.Text.Digits

/-! Finite binary64 numbers, as exact dyadic fractions.

A number is a sign, a significand below 2 ^ 53 and a binary exponent. Every operation
computes its exact result as a quotient of naturals and rounds once, a half to the even
neighbour, so no machine arithmetic is involved.
-/

set_option autoImplicit false

namespace SignalExchange

/-- The number `±significand * 2 ^ exponent`. -/
structure Binary64 where
  negative : Bool
  significand : Nat
  exponent : Int
  deriving DecidableEq, Repr

namespace Binary64

attribute [local instance] naturalPower

def leastExponent : Int := -1074

def greatestExponent : Int := 971

/-- The form in which every operation leaves its result. -/
def Normal (x : Binary64) : Prop :=
  x.significand < 2 ^ (53 : Nat) ∧ leastExponent ≤ x.exponent ∧ x.exponent ≤ greatestExponent ∧
    (2 ^ (52 : Nat) ≤ x.significand ∨ x.exponent = leastExponent)

instance (x : Binary64) : Decidable x.Normal := inferInstanceAs (Decidable (_ ∧ _))

def zero (negative : Bool) : Binary64 := ⟨negative, 0, leastExponent⟩

def neg (x : Binary64) : Binary64 := { x with negative := !x.negative }

def isZero (x : Binary64) : Bool := x.significand == 0

/-- The nearest integer to a quotient; a half goes to the even neighbour. -/
def divideEven (num den : Nat) : Nat :=
  let quotient := num / den
  let twice := 2 * (num % den)
  if twice < den ∨ (twice = den ∧ quotient % 2 = 0) then quotient else quotient + 1

/-- `num / den` in units of `2 ^ exponent`, as a quotient of naturals. -/
def inUnits (num den : Nat) (exponent : Int) : Nat × Nat :=
  if 0 ≤ exponent then (num, den * 2 ^ exponent.toNat)
  else (num * 2 ^ (-exponent).toNat, den)

/-- The exponent whose unit gives the quotient 53 binary digits, or the least exponent. -/
def exponentFor (num den : Nat) : Int :=
  let guess : Int := (num.log2 : Int) - (den.log2 : Int) - 52
  let scaled := inUnits num den guess
  max leastExponent (if scaled.1 / scaled.2 < 2 ^ (52 : Nat) then guess - 1 else guess)

def ofQuotient (negative : Bool) (num den : Nat) : Option Binary64 :=
  if num = 0 then some (zero negative)
  else
    let exponent := exponentFor num den
    let scaled := inUnits num den exponent
    let significand := divideEven scaled.1 scaled.2
    let rounded : Binary64 :=
      if significand = 2 ^ (53 : Nat) then ⟨negative, 2 ^ (52 : Nat), exponent + 1⟩
      else ⟨negative, significand, exponent⟩
    if greatestExponent < rounded.exponent then none else some rounded

def quotient (x : Binary64) : Nat × Nat :=
  if 0 ≤ x.exponent then (x.significand * 2 ^ x.exponent.toNat, 1)
  else (x.significand, 2 ^ (-x.exponent).toNat)

def mul (x y : Binary64) : Option Binary64 :=
  ofQuotient (x.negative ^^ y.negative) (x.quotient.1 * y.quotient.1)
    (x.quotient.2 * y.quotient.2)

/-- The divisor is a power of ten here, never zero. -/
def div (x y : Binary64) : Option Binary64 :=
  ofQuotient (x.negative ^^ y.negative) (x.quotient.1 * y.quotient.2)
    (x.quotient.2 * y.quotient.1)

def powerOfTen (n : Nat) : Option Binary64 := ofQuotient false (10 ^ n) 1

/-- The number nearest to `digits * 10 ^ exponent`; none where that is infinite.
Exponents beyond every finite number are settled without the power. -/
def ofDecimal (negative : Bool) (digits : Nat) (exponent : Int) : Option Binary64 :=
  let places : Int := exponent + (Nat.toDigits 10 digits).length
  if digits = 0 ∨ places < -400 then some (zero negative)
  else if 400 < places then none
  else if 0 ≤ exponent then ofQuotient negative (digits * 10 ^ exponent.toNat) 1
  else ofQuotient negative digits (10 ^ (-exponent).toNat)

end Binary64

end SignalExchange
