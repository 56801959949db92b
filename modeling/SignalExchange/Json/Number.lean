import SignalExchange.Json.Scan
import SignalExchange.Text.Digits

/-! Numbers of a JSON text.

Digits are gathered into a significand as long as it fits 64 unsigned bits; the first digit
that does not fit, and those after it in that run, only move the decimal point. A number with
a point, an exponent or too many digits is a double, made from the significand by one
multiplication or division by a power of ten, so its last bit need not be the nearest one.
-/

set_option autoImplicit false

namespace SignalExchange

namespace Json

inductive Number where
  | integer (value : Int)
  | double (value : Binary64)

def Number.toJson : Number → Json
  | .integer value => .integer value
  | .double value => .double value

def significandLimit : Nat := 18446744073709551615

def exponentLimit : Nat := 2147483647

/-- The significand after the digits that fit, and how many did. -/
def gather : Nat → List Char → Nat × Nat
  | significand, [] => (significand, 0)
  | significand, c :: digits =>
    let next := significand * 10 + digitValue c
    if significandLimit < next then (significand, 0)
    else
      let rest := gather next digits
      (rest.1, rest.2 + 1)

/-- Divides by ten to the given power, at most 308 places at a time. A significand of 64 bits
leaves nothing beyond 616 places. -/
def scaleDown (x : Binary64) (places : Nat) : Option Binary64 :=
  if places ≤ 308 then (Binary64.powerOfTen places).bind x.div
  else if places ≤ 616 then
    ((Binary64.powerOfTen 308).bind x.div).bind fun x =>
      (Binary64.powerOfTen (places - 308)).bind x.div
  else some (Binary64.zero false)

def scaleUp (x : Binary64) (places : Nat) : Option Binary64 :=
  if places ≤ 308 then (Binary64.powerOfTen places).bind x.mul
  else if x.isZero then some x
  else none

def scaled (negative : Bool) (significand : Nat) (exponent : Int) : Option Binary64 := do
  let x ← Binary64.ofQuotient false significand 1
  let x ← if 0 ≤ exponent then scaleUp x exponent.toNat else scaleDown x (-exponent).toNat
  return { x with negative := negative }

def rounded (negative : Bool) (significand : Nat) (exponent : Int) : Scanner Number :=
  fun rest =>
    match scaled negative significand exponent with
    | some value => .ok (.double value, rest)
    | none => Fault.before .numberOutOfRange rest

/-- The digits of an exponent, with the unread text at the first that passes the limit. -/
def exponentDigits : Nat → List Char → Except (List Char) (Nat × List Char)
  | value, [] => .ok (value, [])
  | value, c :: rest =>
    if isDigit c then
      if exponentLimit < value * 10 + digitValue c then .error rest
      else exponentDigits (value * 10 + digitValue c) rest
    else .ok (value, c :: rest)

def exponentSign : List Char → Bool × List Char
  | '+' :: rest => (false, rest)
  | '-' :: rest => (true, rest)
  | rest => (false, rest)

def exponentPart (negative : Bool) (significand : Nat) (start : Int) : Scanner Number :=
  fun rest =>
    let (down, rest) := exponentSign rest
    match rest with
    | [] => Fault.before .endInValue []
    | c :: digits =>
      if isDigit c then
        match exponentDigits (digitValue c) digits with
        | .ok (value, rest) =>
          rounded negative significand (if down then start - value else start + value) rest
        | .error rest =>
          if significand ≠ 0 ∧ ¬down then Fault.before .numberOutOfRange rest
          else .ok (.double (Binary64.zero negative), rest.dropWhile isDigit)
      else Fault.onNext .invalidNumber (c :: digits)

def exponent? (negative : Bool) (significand : Nat) (start : Int) : Scanner Number :=
  fun rest =>
    match rest with
    | 'e' :: rest => exponentPart negative significand start rest
    | 'E' :: rest => exponentPart negative significand start rest
    | rest => rounded negative significand start rest

/-- After the decimal point; `dropped` digits before it did not fit. -/
def fractionPart (negative : Bool) (significand dropped : Nat) : Scanner Number :=
  fun rest =>
    match digitRun rest with
    | ([], []) => Fault.onNext .endInValue []
    | ([], rest) => Fault.onNext .invalidNumber rest
    | (digits, rest) =>
      let (significand, count) := gather significand digits
      exponent? negative significand ((dropped : Int) - (count : Int)) rest

/-- An integer without point or exponent: minus zero and what passes 64 bits are doubles. -/
def whole (negative : Bool) (significand : Nat) : Scanner Number := fun rest =>
  if ¬negative then .ok (.integer significand, rest)
  else if significand = 0 ∨ Integer.least.natAbs < significand then rounded true significand 0 rest
  else .ok (.integer (-(significand : Int)), rest)

def afterWhole (negative : Bool) (significand dropped : Nat) : Scanner Number := fun rest =>
  match rest with
  | '.' :: rest => fractionPart negative significand dropped rest
  | 'e' :: rest => exponentPart negative significand dropped rest
  | 'E' :: rest => exponentPart negative significand dropped rest
  | rest => if dropped = 0 then whole negative significand rest else
      rounded negative significand dropped rest

def number (negative : Bool) : Scanner Number
  | [] => Fault.before .endInValue []
  | '0' :: rest =>
    match digitRun rest with
    | ([], _) => afterWhole negative 0 0 rest
    | _ => Fault.onNext .invalidNumber rest
  | c :: rest =>
    if isDigit c then
      let (digits, rest) := digitRun (c :: rest)
      let (significand, count) := gather 0 digits
      afterWhole negative significand (digits.length - count) rest
    else Fault.onNext .invalidNumber (c :: rest)

/-! Numbers that are passed over keep the grammar and lose the limits -/

def skipExponent : Scanner Unit := fun rest =>
  match (exponentSign rest).2 with
  | [] => Fault.before .invalidNumber []
  | c :: digits =>
    if isDigit c then .ok ((), digits.dropWhile isDigit)
    else Fault.onNext .invalidNumber (c :: digits)

def skipExponent? : Scanner Unit := fun rest =>
  match rest with
  | 'e' :: rest => skipExponent rest
  | 'E' :: rest => skipExponent rest
  | rest => .ok ((), rest)

def skipAfterWhole : Scanner Unit
  | '.' :: rest =>
    match digitRun rest with
    | ([], rest) => Fault.onNext .invalidNumber rest
    | (_, rest) => skipExponent? rest
  | next :: rest =>
    if isDigit next then Fault.onNext .invalidNumber (next :: rest)
    else skipExponent? (next :: rest)
  | [] => .ok ((), [])

def skipNumber : Scanner Unit
  | [] => Fault.before .invalidNumber []
  | c :: rest =>
    if isDigit c then skipAfterWhole (if c = '0' then rest else rest.dropWhile isDigit)
    else Fault.onNext .invalidNumber (c :: rest)

end Json

end SignalExchange
