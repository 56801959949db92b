import SignalExchange.Text.Digits

/-! Addresses of the internet as they are written for hosts, and the one form of each that is
compared. -/

set_option autoImplicit false

namespace SignalExchange

namespace IpAddress

attribute [local instance] naturalPower

/-- The number that digits of a base denote; no digits stand for zero. -/
def numeral? (base : Nat) (digits : List Char) : Option Nat :=
  digits.foldlM (fun total c => do
    let digit ← hexValue c
    if digit < base then some (total * base + digit) else none) 0

/-! Four bytes -/

/-- A zero in front makes a number octal, and `0x` makes it hexadecimal. -/
def number? : List Char → Option Nat
  | [] => none
  | '0' :: 'x' :: digits => numeral? 16 digits
  | '0' :: digit :: digits => numeral? 8 (digit :: digits)
  | digits => numeral? 10 digits

/-- The parts of a name between dots; one dot at its end does not count. -/
def parts (name : List Char) : List (List Char) :=
  let all := name.splitOn '.'
  if all.getLast? = some [] then all.dropLast else all

/-- Such a name is an address, or it is no name at all. -/
def endsInNumber (name : List Char) : Bool :=
  match (parts name).getLast? with
  | none => false
  | some last => (last ≠ [] && last.all isDigit) || (number? last).isSome

/-- The last bytes of a number. -/
def bytesOf : Nat → Nat → List Nat
  | 0, _ => []
  | places + 1, n => bytesOf places (n / 256) ++ [n % 256]

/-- The last number fills all places that the numbers before it leave. -/
def bytes? (name : List Char) : Option (List Nat) := do
  let numbers ← (parts name).mapM number?
  let last ← numbers.getLast?
  let front := numbers.dropLast
  if front.length < 4 ∧ front.all (· < 256) ∧ last < 256 ^ (4 - front.length) then
    some (front ++ bytesOf (4 - front.length) last)
  else none

def bytesText (bytes : List Nat) : String :=
  ".".intercalate (bytes.map fun byte => String.ofList (Nat.toDigits 10 byte))

/-! Eight groups -/

/-- One to four digits. -/
def group? (text : List Char) : Option Nat :=
  if text = [] ∨ 4 < text.length then none else numeral? 16 text

/-- A decimal number of one byte, without a zero in front. -/
def byte? (text : List Char) : Option Nat :=
  match text with
  | [] => none
  | '0' :: _ :: _ => none
  | digits => (numeral? 10 digits).filter (· < 256)

/-- Two groups that are written as four bytes. -/
def bytePairs? (text : List Char) : Option (List Nat) := do
  match ← (text.splitOn '.').mapM byte? with
  | [a, b, c, d] => some [a * 256 + b, c * 256 + d]
  | _ => none

/-- Groups with colons between them. The last two may be written as bytes. -/
def groups? : List (List Char) → Option (List Nat)
  | [] => some []
  | [last] => ((group? last).map ([·])).or (bytePairs? last)
  | text :: rest => do return (← group? text) :: (← groups? rest)

/-- What stands on both sides of the first two colons in a row. -/
def splitAtGap : List Char → Option (List Char × List Char)
  | [] => none
  | ':' :: ':' :: rest => some ([], rest)
  | c :: rest => (splitAtGap rest).map fun sides => (c :: sides.1, sides.2)

/-- Nothing stands for no groups. -/
def side (text : List Char) : List (List Char) := if text = [] then [] else text.splitOn ':'

/-- The groups of an address. Two colons in a row stand for as many groups of zero as are missing,
and for one at least. -/
def pieces? (text : List Char) : Option (List Nat) :=
  match splitAtGap text with
  | none => (groups? (side text)).filter (·.length = 8)
  | some (left, right) => do
    let front ← (side left).mapM group?
    let back ← groups? (side right)
    if front.length + back.length < 8 then
      some (front ++ List.replicate (8 - (front.length + back.length)) 0 ++ back)
    else none

/-- How many zeros stand from a place on. -/
def zerosFrom (pieces : List Nat) (place : Nat) : Nat :=
  ((pieces.drop place).takeWhile (· = 0)).length

/-- The first place from which most zeros stand. -/
def gap (pieces : List Nat) : Nat :=
  (List.range pieces.length).foldl (fun best place =>
    if zerosFrom pieces best < zerosFrom pieces place then place else best) 0

def groupsText (pieces : List Nat) : String :=
  ":".intercalate (pieces.map fun piece => String.ofList (Nat.toDigits 16 piece))

/-- The longest run of zeros is left out, unless it is a single one. -/
def piecesText (pieces : List Nat) : String :=
  let place := gap pieces
  let zeros := zerosFrom pieces place
  if zeros < 2 then groupsText pieces
  else groupsText (pieces.take place) ++ "::" ++ groupsText (pieces.drop (place + zeros))

end IpAddress

end SignalExchange
