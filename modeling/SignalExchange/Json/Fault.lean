import SignalExchange.Json.Printer
import SignalExchange.Text.Quoted

/-! Why a text is refused, and where.

A fault is placed by the number of bytes of the text that were still unread. Faults in the
shape of a record arise without a place; the bracket around the record places them.
-/

set_option autoImplicit false

namespace SignalExchange

namespace Json

inductive Found where
  | null
  | boolean (value : Bool)
  | integer (value : Int)
  | double (value : Binary64)
  | string (text : String)
  | sequence
  | map

def Found.message : Found → String
  | .null => "null"
  | .boolean value => s!"boolean `{value}`"
  | .integer value => s!"integer `{String.ofList (Integer.text value)}`"
  | .double value => s!"floating point `{String.ofList (doubleLayout.write value)}`"
  | .string text => "string " ++ quoted text
  | .sequence => "sequence"
  | .map => "map"

/-- How a value presents itself to a reader that required another. -/
def found : Json → Found
  | .null => .null
  | .boolean value => .boolean value
  | .integer value => .integer value
  | .double value => .double value
  | .string text => .string text
  | .array _ => .sequence
  | .object _ => .map

inductive Cause where
  | endInList
  | endInObject
  | endInString
  | endInValue
  | expectedColon
  | expectedListCommaOrEnd
  | expectedObjectCommaOrEnd
  | expectedWord
  | expectedValue
  | invalidEscape
  | invalidNumber
  | numberOutOfRange
  | controlCharacter
  | keyMustBeString
  | loneSurrogate
  | unpairedSurrogate
  | trailingComma
  | trailingCharacters
  | tooDeep
  | wrongType (found : Found) (expected : String)
  | wrongValue (found : Found) (expected : String)
  | wrongLength (length : Nat) (expected : String)
  | missingField (name : String)
  | duplicateField (name : String)
  | noVariant (name : String)
  | integer (fault : IntegerFault)

def Cause.message : Cause → String
  | .endInList => "EOF while parsing a list"
  | .endInObject => "EOF while parsing an object"
  | .endInString => "EOF while parsing a string"
  | .endInValue => "EOF while parsing a value"
  | .expectedColon => "expected `:`"
  | .expectedListCommaOrEnd => "expected `,` or `]`"
  | .expectedObjectCommaOrEnd => "expected `,` or `\x7d`"
  | .expectedWord => "expected ident"
  | .expectedValue => "expected value"
  | .invalidEscape => "invalid escape"
  | .invalidNumber => "invalid number"
  | .numberOutOfRange => "number out of range"
  | .controlCharacter => "control character (\\u0000-\\u001F) found while parsing a string"
  | .keyMustBeString => "key must be a string"
  | .loneSurrogate => "lone leading surrogate in hex escape"
  | .unpairedSurrogate => "unexpected end of hex escape"
  | .trailingComma => "trailing comma"
  | .trailingCharacters => "trailing characters"
  | .tooDeep => "recursion limit exceeded"
  | .wrongType found expected => s!"invalid type: {found.message}, expected {expected}"
  | .wrongValue found expected => s!"invalid value: {found.message}, expected {expected}"
  | .wrongLength length expected => s!"invalid length {length}, expected {expected}"
  | .missingField name => s!"missing field `{name}`"
  | .duplicateField name => s!"duplicate field `{name}`"
  | .noVariant name => s!"data did not match any variant of untagged enum {name}"
  | .integer fault => fault.message

def byteLength : List Char → Nat
  | [] => 0
  | c :: rest => c.utf8Size + byteLength rest

/-- A fault is placed, or waits at the text that was unread when it arose. -/
inductive Place where
  | unread (bytes : Nat)
  | waiting (rest : List Char)

structure Fault where
  cause : Cause
  place : Place

namespace Fault

def before {α : Type} (cause : Cause) (rest : List Char) : Except Fault α :=
  .error ⟨cause, .unread (byteLength rest)⟩

/-- A fault one byte into the unread text, or at its end. -/
def onNext {α : Type} (cause : Cause) (rest : List Char) : Except Fault α :=
  .error ⟨cause, .unread (byteLength rest - 1)⟩

def waiting {α : Type} (cause : Cause) (rest : List Char) : Except Fault α :=
  .error ⟨cause, .waiting rest⟩

/-- Places a waiting fault after what `pass` leaves of its text. -/
def settle (pass : List Char → List Char) (fault : Fault) : Fault :=
  match fault.place with
  | .unread _ => fault
  | .waiting rest => { fault with place := .unread (byteLength (pass rest)) }

def unread (fault : Fault) : Nat :=
  match fault.place with
  | .unread bytes => bytes
  | .waiting rest => byteLength rest

end Fault

/-- A line of a text, from one, and the bytes before a point of that line. -/
structure Position where
  line : Nat
  column : Nat
  deriving DecidableEq, Repr

def Position.advance : List Char → Nat → Position → Position
  | [], _, position => position
  | c :: rest, bytes, position =>
    if bytes < c.utf8Size then { position with column := position.column + bytes }
    else if c = '\n' then advance rest (bytes - 1) ⟨position.line + 1, 0⟩
    else advance rest (bytes - c.utf8Size) { position with column := position.column + c.utf8Size }

structure ReadError where
  cause : Cause
  position : Position

def ReadError.message (error : ReadError) : String :=
  s!"{error.cause.message} at line {error.position.line} column {error.position.column}"

def Fault.locate (text : List Char) (fault : Fault) : ReadError :=
  ⟨fault.cause, Position.advance text (byteLength text - fault.unread) ⟨1, 0⟩⟩

end Json

end SignalExchange
