import SignalExchange.Json.Fault
import SignalExchange.Text.Digits

/-! Blanks, words, strings and brackets of a JSON text.

A scanner takes the unread text and gives what it read with the text after it.
-/

set_option autoImplicit false

namespace SignalExchange

namespace Json

abbrev Scanner (α : Type) := List Char → Except Fault (α × List Char)

def isBlank (c : Char) : Bool := c = ' ' || c = '\n' || c = '\t' || c = '\r'

def skipBlanks (rest : List Char) : List Char := rest.dropWhile isBlank

def word : List Char → Scanner Unit
  | [], rest => .ok ((), rest)
  | _ :: _, [] => Fault.before .endInValue []
  | expected :: more, c :: rest =>
    if c = expected then word more rest else Fault.onNext .expectedWord (c :: rest)

/-! Strings, after the opening quote -/

def hexUnit (a b c d : Char) : Option Nat := do
  return (((← hexValue a) * 16 + (← hexValue b)) * 16 + (← hexValue c)) * 16 + (← hexValue d)

/-- An escape takes four bytes for its digits, whatever they are. -/
def badHexEscape {α : Type} (rest : List Char) : Except Fault α :=
  if byteLength rest < 4 then Fault.before .endInString []
  else .error ⟨.invalidEscape, .unread (byteLength rest - 4)⟩

def simpleEscape : Char → Option Char
  | '"' => some '"'
  | '\\' => some '\\'
  | '/' => some '/'
  | 'b' => some '\x08'
  | 'f' => some '\x0c'
  | 'n' => some '\n'
  | 'r' => some '\r'
  | 't' => some '\t'
  | _ => none

def isLeading (unit : Nat) : Bool := 0xd800 ≤ unit && unit ≤ 0xdbff

def isTrailing (unit : Nat) : Bool := 0xdc00 ≤ unit && unit ≤ 0xdfff

def pairValue (leading trailing : Nat) : Nat :=
  (leading - 0xd800) * 0x400 + (trailing - 0xdc00) + 0x10000

def prepend (c : Char) (read : List Char × List Char) : List Char × List Char :=
  (c :: read.1, read.2)

/-- The characters up to the closing quote. A leading surrogate needs a trailing one at once. -/
def stringBody : Scanner (List Char)
  | [] => Fault.before .endInString []
  | '"' :: rest => .ok ([], rest)
  | '\\' :: 'u' :: a :: b :: c :: d :: rest =>
    match hexUnit a b c d with
    | none => badHexEscape (a :: b :: c :: d :: rest)
    | some unit =>
      if isTrailing unit then Fault.before .loneSurrogate rest
      else if isLeading unit then
        match rest with
        | '\\' :: 'u' :: e :: f :: g :: h :: rest =>
          match hexUnit e f g h with
          | none => badHexEscape (e :: f :: g :: h :: rest)
          | some trailing =>
            if isTrailing trailing then
              (stringBody rest).map (prepend (Char.ofNat (pairValue unit trailing)))
            else Fault.before .loneSurrogate rest
        | '\\' :: 'u' :: rest => badHexEscape rest
        | [] => Fault.before .endInString []
        | ['\\'] => Fault.before .endInString []
        | '\\' :: rest => Fault.onNext .unpairedSurrogate rest
        | rest => Fault.onNext .unpairedSurrogate rest
      else (stringBody rest).map (prepend (Char.ofNat unit))
  | '\\' :: 'u' :: rest => badHexEscape rest
  | ['\\'] => Fault.before .endInString []
  | '\\' :: c :: rest =>
    match simpleEscape c with
    | some plain => (stringBody rest).map (prepend plain)
    | none => Fault.onNext .invalidEscape (c :: rest)
  | c :: rest =>
    if c.toNat < 32 then Fault.onNext .controlCharacter (c :: rest)
    else (stringBody rest).map (prepend c)

def readString : Scanner String := fun rest =>
  (stringBody rest).map fun read => (String.ofList read.1, read.2)

/-- Passes a string without pairing its surrogates. -/
def skipString : Scanner Unit
  | [] => Fault.before .endInString []
  | '"' :: rest => .ok ((), rest)
  | '\\' :: 'u' :: a :: b :: c :: d :: rest =>
    match hexUnit a b c d with
    | none => badHexEscape (a :: b :: c :: d :: rest)
    | some _ => skipString rest
  | '\\' :: 'u' :: rest => badHexEscape rest
  | ['\\'] => Fault.before .endInString []
  | '\\' :: c :: rest =>
    match simpleEscape c with
    | some _ => skipString rest
    | none => Fault.onNext .invalidEscape (c :: rest)
  | c :: rest =>
    if c.toNat < 32 then Fault.before .controlCharacter (c :: rest) else skipString rest

/-! Brackets, commas and colons -/

def nextItem (first : Bool) : Scanner Bool := fun rest =>
  match skipBlanks rest with
  | [] => Fault.onNext .endInList []
  | ']' :: rest => .ok (false, ']' :: rest)
  | c :: rest =>
    if first then .ok (true, c :: rest)
    else if c = ',' then
      match skipBlanks rest with
      | [] => Fault.onNext .endInValue []
      | ']' :: rest => Fault.onNext .trailingComma (']' :: rest)
      | rest => .ok (true, rest)
    else Fault.onNext .expectedListCommaOrEnd (c :: rest)

def nextKey (first : Bool) : Scanner Bool := fun rest =>
  match skipBlanks rest with
  | [] => Fault.onNext .endInObject []
  | '\x7d' :: rest => .ok (false, '\x7d' :: rest)
  | c :: rest =>
    if first then
      if c = '"' then .ok (true, rest) else Fault.onNext .keyMustBeString (c :: rest)
    else if c = ',' then
      match skipBlanks rest with
      | [] => Fault.onNext .endInValue []
      | '"' :: rest => .ok (true, rest)
      | '\x7d' :: rest => Fault.onNext .trailingComma ('\x7d' :: rest)
      | rest => Fault.onNext .keyMustBeString rest
    else Fault.onNext .expectedObjectCommaOrEnd (c :: rest)

def colon : Scanner Unit := fun rest =>
  match skipBlanks rest with
  | [] => Fault.onNext .endInObject []
  | ':' :: rest => .ok ((), rest)
  | rest => Fault.onNext .expectedColon rest

def closeList : Scanner Unit := fun rest =>
  match skipBlanks rest with
  | [] => Fault.onNext .endInList []
  | ']' :: rest => .ok ((), rest)
  | ',' :: rest =>
    match skipBlanks rest with
    | ']' :: rest => Fault.onNext .trailingComma (']' :: rest)
    | rest => Fault.onNext .trailingCharacters rest
  | rest => Fault.onNext .trailingCharacters rest

def closeObject : Scanner Unit := fun rest =>
  match skipBlanks rest with
  | [] => Fault.onNext .endInObject []
  | '\x7d' :: rest => .ok ((), rest)
  | ',' :: rest => Fault.onNext .trailingComma (',' :: rest)
  | rest => Fault.onNext .trailingCharacters rest

def passListEnd (rest : List Char) : List Char :=
  match skipBlanks rest with
  | ']' :: rest => rest
  | ',' :: rest => skipBlanks rest
  | rest => rest

def passObjectEnd (rest : List Char) : List Char :=
  match skipBlanks rest with
  | '\x7d' :: rest => rest
  | rest => rest

/-- A body and the bracket after it. Waiting faults of the body are placed after that bracket. -/
def enclosed {α : Type} (body : Scanner α) (close : Scanner Unit)
    (pass : List Char → List Char) : Scanner α := fun rest =>
  match body rest with
  | .error fault => .error (fault.settle pass)
  | .ok (value, rest) => (close rest).map fun closed => (value, closed.2)

def inList {α : Type} (body : Scanner α) : Scanner α := enclosed body closeList passListEnd

def inObject {α : Type} (body : Scanner α) : Scanner α :=
  enclosed body closeObject passObjectEnd

def items {α : Type} (item : Scanner α) : Nat → Bool → Scanner (List α)
  | 0, _, rest => Fault.before .endInList rest
  | fuel + 1, first, rest => do
    match ← nextItem first rest with
    | (false, rest) => return ([], rest)
    | (true, rest) =>
      let (value, rest) ← item rest
      let (values, rest) ← items item fuel false rest
      return (value :: values, rest)

/-- Folds `member` over the keys of an object up to its closing bracket; `member` is given the
key and reads its value, colon included. -/
def members {σ : Type} (member : σ → String → Scanner σ) : Nat → Bool → σ → Scanner σ
  | 0, _, _, rest => Fault.before .endInObject rest
  | fuel + 1, first, state, rest => do
    match ← nextKey first rest with
    | (false, rest) => return (state, rest)
    | (true, rest) =>
      let (key, rest) ← readString rest
      let (state, rest) ← member state key rest
      members member fuel false state rest

/-- Each item takes at least one character, so the text bounds their number. -/
def allItems {α : Type} (item : Scanner α) : Scanner (List α) := fun rest =>
  items item (rest.length + 1) true rest

def allMembers {σ : Type} (member : σ → String → Scanner σ) (start : σ) : Scanner σ :=
  fun rest => members member (rest.length + 1) true start rest

end Json

end SignalExchange
