/-! ASCII digits, decimal and hexadecimal, and the powers that their places count for. -/

set_option autoImplicit false

namespace SignalExchange

/-- The powers that are computed. Where naturals are a monoid too, they have others of the same
value; a module that computes with powers takes these. -/
abbrev naturalPower : Pow Nat Nat := instPowNat

def isDigit (c : Char) : Bool := '0' ≤ c && c ≤ '9'

/-- The value of a digit. -/
def digitValue (c : Char) : Nat := c.toNat - '0'.toNat

def digitRun (text : List Char) : List Char × List Char :=
  (text.takeWhile isDigit, text.dropWhile isDigit)

def digitsValue (digits : List Char) : Nat :=
  digits.foldl (fun total c => total * 10 + digitValue c) 0

def hexValue (c : Char) : Option Nat :=
  if '0' ≤ c ∧ c ≤ '9' then some (c.toNat - 48)
  else if 'a' ≤ c ∧ c ≤ 'f' then some (c.toNat - 87)
  else if 'A' ≤ c ∧ c ≤ 'F' then some (c.toNat - 55)
  else none

end SignalExchange
