import SignalExchange.Text.Digits

/-! Percent coding: a byte is written as two hexadecimal digits behind a percent sign. -/

set_option autoImplicit false

namespace SignalExchange

def hexDigit (n : Nat) : Char := Char.ofNat (if n < 10 then 48 + n else 55 + n)

def percentByte (byte : UInt8) : List Char :=
  ['%', hexDigit (byte.toNat / 16), hexDigit (byte.toNat % 16)]

def utf8Bytes (c : Char) : List UInt8 := (String.ofList [c]).toUTF8.toList

/-- The bytes of a character, each behind a percent sign. -/
def percentEncode (c : Char) : List Char := (utf8Bytes c).flatMap percentByte

/-- The bytes of a text. A percent sign without two digits behind it stands for itself. -/
def percentDecode : List Char → List UInt8
  | '%' :: a :: b :: rest =>
    match hexValue a, hexValue b with
    | some high, some low => UInt8.ofNat (high * 16 + low) :: percentDecode rest
    | _, _ => utf8Bytes '%' ++ percentDecode (a :: b :: rest)
  | c :: rest => utf8Bytes c ++ percentDecode rest
  | [] => []

/-- The text that bytes encode, if they do. -/
def textOfBytes? (bytes : List UInt8) : Option String := String.fromUTF8? bytes.toByteArray

end SignalExchange
