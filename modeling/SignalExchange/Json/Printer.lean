import SignalExchange.Json.Value
import SignalExchange.Number.Shortest
import SignalExchange.Text.Integer

/-! The compact text of a JSON document: no blanks, and no escape that is not required. -/

set_option autoImplicit false

namespace SignalExchange

namespace Json

def hexDigit (n : Nat) : Char := Char.ofNat (if n < 10 then 48 + n else 87 + n)

/-- Quotes, backslashes and control characters are escaped, all else stands for itself. -/
def escape (c : Char) : List Char :=
  if c = '"' then ['\\', '"']
  else if c = '\\' then ['\\', '\\']
  else if c = '\n' then ['\\', 'n']
  else if c = '\r' then ['\\', 'r']
  else if c = '\t' then ['\\', 't']
  else if c = '\x08' then ['\\', 'b']
  else if c = '\x0c' then ['\\', 'f']
  else if c.toNat < 32 then
    ['\\', 'u', '0', '0', hexDigit (c.toNat / 16), hexDigit (c.toNat % 16)]
  else [c]

def printString (text : String) : List Char :=
  '"' :: (text.toList.flatMap escape ++ ['"'])

/-- Doubles have no exponent from 0.00001 up to 10 ^ 16, and always a point or an exponent. -/
def doubleLayout : DecimalLayout := ⟨-4, 16, 'e', ['+']⟩

mutual

def print : Json → List Char
  | .null => ['n', 'u', 'l', 'l']
  | .boolean true => ['t', 'r', 'u', 'e']
  | .boolean false => ['f', 'a', 'l', 's', 'e']
  | .integer n => Integer.text n
  | .double x => doubleLayout.write x
  | .string s => printString s
  | .array items => '[' :: (printItems items ++ [']'])
  | .object entries => '\x7b' :: (printEntries entries ++ ['\x7d'])

def printItems : List Json → List Char
  | [] => []
  | [item] => print item
  | item :: next :: rest => print item ++ ',' :: printItems (next :: rest)

def printEntries : List (String × Json) → List Char
  | [] => []
  | [(key, value)] => printString key ++ ':' :: print value
  | (key, value) :: next :: rest =>
    printString key ++ ':' :: (print value ++ ',' :: printEntries (next :: rest))

end

def text (value : Json) : String := String.ofList value.print

end Json

end SignalExchange
