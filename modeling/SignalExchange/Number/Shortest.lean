import SignalExchange.Number.Binary64

/-! The shortest decimal that reads back as a given binary64 number.

The decimals that round to a number form an interval, closed exactly when its significand is
even. For one digit, two digits and so on, the two decimals around the number are tried;
the first length with a decimal in the interval wins, and of two such decimals the nearer, or
the even one when both are equally near.
-/

set_option autoImplicit false

namespace SignalExchange

namespace Binary64

attribute [local instance] naturalPower

/-- The magnitude and the ends of its rounding interval over one denominator. -/
structure Interval where
  low : Nat
  value : Nat
  high : Nat
  scale : Nat
  closed : Bool

/-- The neighbour below a power of two is nearer, so the lower half gap halves there. -/
def interval (x : Binary64) : Interval :=
  let below := if x.significand = 2 ^ (52 : Nat) ∧ leastExponent < x.exponent then 1 else 2
  let up := 2 ^ x.exponent.toNat
  { low := (4 * x.significand - below) * up
    value := 4 * x.significand * up
    high := (4 * x.significand + 2) * up
    scale := 4 * 2 ^ (-x.exponent).toNat
    closed := x.significand % 2 = 0 }

def Interval.holds (i : Interval) (num den : Nat) : Bool :=
  if i.closed then i.low * den ≤ num * i.scale && num * i.scale ≤ i.high * den
  else i.low * den < num * i.scale && num * i.scale < i.high * den

def decimalLength (n : Nat) : Nat := (Nat.toDigits 10 n).length

/-- The number `p` with `10 ^ (p - 1) ≤ num / den < 10 ^ p`. -/
def decimalPoint (num den : Nat) : Int :=
  if den ≤ num then decimalLength (num / den) else 1 - (decimalLength ((den - 1) / num) : Int)

def decimalQuotient (digits : Nat) (exponent : Int) : Nat × Nat :=
  (digits * 10 ^ exponent.toNat, 10 ^ (-exponent).toNat)

def distance (a b : Nat × Nat) : Nat :=
  (a.1 * b.2 - b.1 * a.2) + (b.1 * a.2 - a.1 * b.2)

/-- The decimal of `count` digits nearest to the value among those in the interval; of two
equally near ones, the even one. -/
def Interval.decimal? (i : Interval) (count : Nat) : Option (Nat × Int) :=
  let exponent := decimalPoint i.value i.scale - count
  let floor := i.value * 10 ^ (-exponent).toNat / (i.scale * 10 ^ exponent.toNat)
  let inside (digits : Nat) : Bool :=
    i.holds (decimalQuotient digits exponent).1 (decimalQuotient digits exponent).2
  let gap (digits : Nat) : Nat := distance (decimalQuotient digits exponent) (i.value, i.scale)
  let nearer (a b : Nat) : Bool := gap a < gap b || (gap a = gap b && a % 2 = 0)
  if inside floor then
    if inside (floor + 1) && nearer (floor + 1) floor then some (floor + 1, exponent)
    else some (floor, exponent)
  else if inside (floor + 1) then some (floor + 1, exponent)
  else none

def dropTrailingZeros : Nat → Nat × Int → Nat × Int
  | 0, decimal => decimal
  | fuel + 1, (digits, exponent) =>
    if digits ≠ 0 ∧ digits % 10 = 0 then dropTrailingZeros fuel (digits / 10, exponent + 1)
    else (digits, exponent)

/-- Seventeen digits always suffice. -/
def shortest (x : Binary64) : Nat × Int :=
  let found := ((List.range 17).map (· + 1)).findSome? x.interval.decimal?
  dropTrailingZeros 18 (found.getD (0, 0))

end Binary64

/-- How a nonzero decimal is laid out: the positions of the point that are written without an
exponent, the fewest decimals there, and the mark and plus sign of an exponent. -/
structure DecimalLayout where
  leastPoint : Int
  greatestPoint : Int
  mark : Char
  plus : List Char
  deriving Repr

namespace DecimalLayout

def zeros (n : Nat) : List Char := List.replicate n '0'

def positional (digits : List Char) (point : Int) : List Char :=
  if point ≤ 0 then '0' :: '.' :: (zeros (-point).toNat ++ digits)
  else
    let whole := digits.take point.toNat
    let decimals := digits.drop point.toNat
    whole ++ zeros (point.toNat - whole.length) ++ '.' ::
      (if decimals = [] then ['0'] else decimals)

def scientific (layout : DecimalLayout) (digits : List Char) (power : Int) : List Char :=
  let lead := match digits with
    | [] => []
    | [d] => [d]
    | d :: rest => d :: '.' :: rest
  lead ++ layout.mark :: (if power < 0 then ['-'] else layout.plus) ++
    Nat.toDigits 10 power.natAbs

def write (layout : DecimalLayout) (x : Binary64) : List Char :=
  let sign := if x.negative then ['-'] else []
  if x.isZero then sign ++ ['0', '.', '0']
  else
    let decimal := x.shortest
    let digits := Nat.toDigits 10 decimal.1
    let point : Int := digits.length + decimal.2
    sign ++
      (if layout.leastPoint ≤ point ∧ point ≤ layout.greatestPoint then positional digits point
      else layout.scientific digits (point - 1))

end DecimalLayout

end SignalExchange
