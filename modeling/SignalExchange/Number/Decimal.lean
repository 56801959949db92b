import SignalExchange.Number.Binary64
import SignalExchange.Text.Digits

/-! Decimal texts of numbers, read to the nearest binary64 number. -/

set_option autoImplicit false

namespace SignalExchange

inductive DecimalFault where
  | empty
  | invalid
  deriving DecidableEq, Repr

def DecimalFault.message : DecimalFault → String
  | .empty => "cannot parse float from empty string"
  | .invalid => "invalid float literal"

namespace Decimal

/-- Digits with at most one point among them, the digits after the point counted. -/
structure Mantissa where
  digits : List Char
  decimals : Nat

def mantissa (text : List Char) : Mantissa × List Char :=
  match digitRun text with
  | (whole, '.' :: rest) =>
    let decimals := digitRun rest
    (⟨whole ++ decimals.1, decimals.1.length⟩, decimals.2)
  | (whole, rest) => (⟨whole, 0⟩, rest)

def allDigits (text : List Char) : Option Nat :=
  if text ≠ [] ∧ text.all isDigit then some (digitsValue text) else none

def exponent : List Char → Option Int
  | [] => some 0
  | mark :: rest =>
    if mark = 'e' ∨ mark = 'E' then
      match rest with
      | '-' :: digits => (allDigits digits).map fun n => -(n : Int)
      | '+' :: digits => (allDigits digits).map fun n => (n : Int)
      | digits => (allDigits digits).map fun n => (n : Int)
    else none

def isUnbounded (text : List Char) : Bool :=
  String.ofList (text.map Char.toLower) ∈ ["inf", "infinity", "nan"]

/-- A number without its sign; the inner none stands for a number that is not finite. -/
def unsigned (negative : Bool) (text : List Char) : Except DecimalFault (Option Binary64) :=
  let (mantissa, rest) := mantissa text
  match mantissa.digits, exponent rest with
  | _ :: _, some power =>
    .ok (Binary64.ofDecimal negative (digitsValue mantissa.digits)
      (power - (mantissa.decimals : Int)))
  | _, _ => if isUnbounded text then .ok none else .error .invalid

/-- The nearest finite number, or none for what is not finite. -/
def read : List Char → Except DecimalFault (Option Binary64)
  | [] => .error .empty
  | '-' :: text => unsigned true text
  | '+' :: text => unsigned false text
  | text => unsigned false text

end Decimal

end SignalExchange
