import SignalExchange.Text.Digits

/-! Points in time, written as date, time and offset from UTC. -/

set_option autoImplicit false

namespace SignalExchange

structure Timestamp where
  /-- Seconds in UTC since the start of 1970. -/
  seconds : Int
  /-- At least 10 ^ 9 within a leap second. -/
  nanos : Nat
  deriving DecidableEq, Repr

inductive TimestampFault where
  | tooShort
  | invalid
  | outOfRange
  | tooLong
  deriving DecidableEq, Repr

def TimestampFault.message : TimestampFault → String
  | .tooShort => "premature end of input"
  | .invalid => "input contains invalid characters"
  | .outOfRange => "input is out of range"
  | .tooLong => "trailing input"

namespace Timestamp

attribute [local instance] naturalPower

def isLeapYear (year : Nat) : Bool :=
  year % 4 = 0 && (year % 100 ≠ 0 || year % 400 = 0)

def monthLength (year month : Nat) : Nat :=
  if month = 2 then (if isLeapYear year then 29 else 28)
  else if month ∈ [4, 6, 9, 11] then 30
  else 31

/-- Days since the start of 1970. Years are counted from March, so that a leap day ends one. -/
def dayNumber (year month day : Nat) : Int :=
  let y : Int := if month ≤ 2 then (year : Int) - 1 else year
  let monthFromMarch := if month ≤ 2 then month + 9 else month - 3
  let dayOfYear : Int := ((153 * monthFromMarch + 2) / 5 + day - 1 : Nat)
  y * 365 + y / 4 - y / 100 + y / 400 + dayOfYear - 719468

def civilDate (number : Int) : Int × Int × Int :=
  let shifted := number + 719468
  let era := shifted / 146097
  let dayOfEra := shifted - era * 146097
  let yearOfEra := (dayOfEra - dayOfEra / 1460 + dayOfEra / 36524 - dayOfEra / 146096) / 365
  let dayOfYear := dayOfEra - (365 * yearOfEra + yearOfEra / 4 - yearOfEra / 100)
  let monthFromMarch := (5 * dayOfYear + 2) / 153
  let day := dayOfYear - (153 * monthFromMarch + 2) / 5 + 1
  let month := if monthFromMarch < 10 then monthFromMarch + 3 else monthFromMarch - 9
  (yearOfEra + era * 400 + (if month ≤ 2 then 1 else 0), month, day)

/-! Reading -/

def fixedNumber (count : Nat) (text : List Char) : Except TimestampFault (Nat × List Char) :=
  if (text.take count).all isDigit then .ok (digitsValue (text.take count), text.drop count)
  else .error .invalid

def oneOf (marks text : List Char) : Except TimestampFault (List Char) :=
  match text with
  | [] => .error .tooShort
  | c :: rest => if c ∈ marks then .ok rest else .error .invalid

/-- Up to nine digits count, and those after them are passed over. -/
def fraction (text : List Char) : Except TimestampFault (Nat × List Char) :=
  match text with
  | '.' :: rest =>
    match digitRun rest with
    | ([], []) => .error .tooShort
    | ([], _) => .error .invalid
    | (digits, rest) =>
      let kept := digits.take 9
      .ok (digitsValue kept * 10 ^ (9 - kept.length), rest)
  | rest => .ok (0, rest)

def twoDigits (text : List Char) : Except TimestampFault (Nat × List Char) :=
  match text with
  | a :: b :: rest =>
    if isDigit a && isDigit b then .ok (digitsValue [a, b], rest) else .error .invalid
  | [c] => if c.utf8Size = 1 then .error .tooShort else .error .invalid
  | [] => .error .tooShort

def offsetMinutes (text : List Char) : Except TimestampFault (Int × List Char) := do
  let (hours, rest) ← twoDigits text
  let rest ← oneOf [':'] rest
  let (minutes, rest) ← twoDigits rest
  if 60 ≤ minutes then throw .outOfRange
  return ((hours * 60 + minutes : Nat), rest)

/-- The offset from UTC in minutes; a minus sign may stand for the hyphen. -/
def offset (text : List Char) : Except TimestampFault (Int × List Char) :=
  match text with
  | [] => .error .tooShort
  | c :: rest =>
    if c = 'Z' ∨ c = 'z' then .ok (0, rest)
    else if c = '+' then offsetMinutes rest
    else if c = '-' ∨ c = '−' then
      (offsetMinutes rest).map fun found => (-found.1, found.2)
    else .error .invalid

def byteCount (text : List Char) : Nat := text.foldl (fun count c => count + c.utf8Size) 0

def date (text : List Char) : Except TimestampFault (Int × List Char) := do
  let (year, rest) ← fixedNumber 4 text
  let rest ← oneOf ['-'] rest
  let (month, rest) ← fixedNumber 2 rest
  let rest ← oneOf ['-'] rest
  let (day, rest) ← fixedNumber 2 rest
  if month = 0 ∨ 12 < month ∨ day = 0 ∨ monthLength year month < day then throw .outOfRange
  return (dayNumber year month day, rest)

/-- The second of the day and its fraction. Second 60 is a leap second, which is the 59th with
a fraction of at least one. -/
def time (text : List Char) : Except TimestampFault (Int × Nat × List Char) := do
  let (hour, rest) ← fixedNumber 2 text
  let rest ← oneOf [':'] rest
  let (minute, rest) ← fixedNumber 2 rest
  let rest ← oneOf [':'] rest
  let (second, rest) ← fixedNumber 2 rest
  let (nanos, rest) ← fraction rest
  if 24 ≤ hour ∨ 60 ≤ minute ∨ 60 < second then throw .outOfRange
  let leap := second = 60
  return ((hour * 3600 + minute * 60 + (if leap then 59 else second) : Nat),
    (if leap then nanos + 1000000000 else nanos), rest)

def read (text : String) : Except TimestampFault Timestamp := do
  if byteCount text.toList < 19 then throw .tooShort
  let (day, rest) ← date text.toList
  let rest ← oneOf ['T', 't', ' '] rest
  let (second, nanos, rest) ← time rest
  let (minutes, rest) ← offset rest
  if rest ≠ [] then throw .tooLong
  if 24 * 60 ≤ minutes.natAbs then throw .outOfRange
  return ⟨day * 86400 + second - minutes * 60, nanos⟩

/-! Writing -/

def padded (width : Nat) (n : Nat) : List Char :=
  let digits := Nat.toDigits 10 n
  List.replicate (width - digits.length) '0' ++ digits

/-- Years of other than four digits have a sign. -/
def yearText (year : Int) : List Char :=
  if 0 ≤ year ∧ year ≤ 9999 then padded 4 year.natAbs
  else (if year < 0 then '-' else '+') :: padded 4 year.natAbs

/-- Three, six or nine decimals, as few as are exact. -/
def fractionText (nanos : Nat) : List Char :=
  if nanos = 0 then []
  else if nanos % 1000000 = 0 then '.' :: padded 3 (nanos / 1000000)
  else if nanos % 1000 = 0 then '.' :: padded 6 (nanos / 1000)
  else '.' :: padded 9 nanos

def text (timestamp : Timestamp) : String :=
  let (year, month, day) := civilDate (timestamp.seconds / 86400)
  let second := (timestamp.seconds % 86400).toNat
  let leap := 1000000000 ≤ timestamp.nanos
  String.ofList (yearText year ++ '-' :: padded 2 month.toNat ++ '-' :: padded 2 day.toNat ++
    'T' :: padded 2 (second / 3600) ++ ':' :: padded 2 (second / 60 % 60) ++
    ':' :: padded 2 (second % 60 + if leap then 1 else 0) ++
    fractionText (if leap then timestamp.nanos - 1000000000 else timestamp.nanos) ++
    ['+', '0', '0', ':', '0', '0'])

end Timestamp

end SignalExchange
