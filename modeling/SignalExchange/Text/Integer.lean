import SignalExchange.Text.Digits

/-! Signed 64-bit integers written in decimal.

A reading stops at the first fault from the left, so an overlong number that also
holds a stray character is reported by whichever comes first.
-/

set_option autoImplicit false

namespace SignalExchange

/-- Why a text is no 64-bit integer. -/
inductive IntegerFault where
  | empty
  | badDigit
  | tooLarge
  | tooSmall
  deriving DecidableEq, Repr

def IntegerFault.message : IntegerFault → String
  | .empty => "cannot parse integer from empty string"
  | .badDigit => "invalid digit found in string"
  | .tooLarge => "number too large to fit in target type"
  | .tooSmall => "number too small to fit in target type"

namespace Integer

def least : Int := -9223372036854775808

def greatest : Int := 9223372036854775807

/-- The largest integer that a document may hold without becoming a double. -/
def greatestUnsigned : Int := 18446744073709551615

def InRange (n : Int) : Prop := least ≤ n ∧ n ≤ greatest

instance (n : Int) : Decidable (InRange n) := inferInstanceAs (Decidable (_ ∧ _))

/-- Reads digits onto `total`, refusing to pass `limit`. -/
def readDigits (limit : Nat) (overflow : IntegerFault) : Nat → List Char → Except IntegerFault Nat
  | total, [] => .ok total
  | total, c :: rest =>
    if isDigit c then
      if limit < total * 10 + digitValue c then .error overflow
      else readDigits limit overflow (total * 10 + digitValue c) rest
    else .error .badDigit

/-- An optional sign and at least one digit, nothing else. -/
def read (text : List Char) : Except IntegerFault Int :=
  match text with
  | [] => .error .empty
  | ['-'] | ['+'] => .error .badDigit
  | '-' :: digits => (readDigits least.natAbs .tooSmall 0 digits).map fun n => -(n : Int)
  | '+' :: digits => (readDigits greatest.natAbs .tooLarge 0 digits).map fun n => (n : Int)
  | digits => (readDigits greatest.natAbs .tooLarge 0 digits).map fun n => (n : Int)

def text (n : Int) : List Char :=
  if n < 0 then '-' :: Nat.toDigits 10 n.natAbs else Nat.toDigits 10 n.natAbs

end Integer

end SignalExchange
