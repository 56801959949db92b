import SignalExchange.Ascending
import SignalExchange.Json.Number

/-! Reading JSON values.

Brackets may nest to a limit, which is what the reader recurses on. A value that is passed over
is held to the grammar alone: its depth, the size of its numbers and the pairing of its
surrogates are not looked at.
-/

set_option autoImplicit false

namespace SignalExchange

namespace Json

def nestingLimit : Nat := 127

/-- A value that starts with no bracket. -/
def bare : Scanner Json
  | [] => Fault.onNext .endInValue []
  | 'n' :: rest => do
    let (_, rest) ← word ['u', 'l', 'l'] rest
    return (.null, rest)
  | 't' :: rest => do
    let (_, rest) ← word ['r', 'u', 'e'] rest
    return (.boolean true, rest)
  | 'f' :: rest => do
    let (_, rest) ← word ['a', 'l', 's', 'e'] rest
    return (.boolean false, rest)
  | '-' :: rest => do
    let (number, rest) ← number true rest
    return (number.toJson, rest)
  | '"' :: rest => do
    let (text, rest) ← readString rest
    return (.string text, rest)
  | c :: rest =>
    if isDigit c then do
      let (number, rest) ← number false (c :: rest)
      return (number.toJson, rest)
    else Fault.onNext .expectedValue (c :: rest)

/-- Reads the value of an entry, which `enter` puts to the entries before it. -/
def entryInto (enter : String → Json → List (String × Json) → List (String × Json))
    (item : Scanner Json) (entries : List (String × Json)) (key : String) :
    Scanner (List (String × Json)) := fun rest => do
  let (_, rest) ← colon rest
  let (value, rest) ← item rest
  return (enter key value entries, rest)

/-- The value that starts at the first character that is not blank; `levels` more brackets may
be opened. -/
def valueWith (enter : String → Json → List (String × Json) → List (String × Json)) :
    Nat → Scanner Json
  | levels, rest =>
    match skipBlanks rest with
    | '[' :: rest =>
      match levels with
      | 0 => Fault.onNext .tooDeep ('[' :: rest)
      | levels + 1 => do
        let (values, rest) ← inList (allItems (valueWith enter levels)) rest
        return (.array values, rest)
    | '\x7b' :: rest =>
      match levels with
      | 0 => Fault.onNext .tooDeep ('\x7b' :: rest)
      | levels + 1 => do
        let (entries, rest) ←
          inObject (allMembers (entryInto enter (valueWith enter levels)) []) rest
        return (.object entries, rest)
    | rest => bare rest

/-- The entries of an object ascend by key, and the last one of a key counts. -/
def value : Nat → Scanner Json := valueWith Ascending.insert

/-! Values that are passed over -/

inductive Bracket where
  | list
  | object

def Bracket.close : Bracket → Char
  | .list => ']'
  | .object => '\x7d'

def Bracket.commaOrEnd : Bracket → Cause
  | .list => .expectedListCommaOrEnd
  | .object => .expectedObjectCommaOrEnd

def Bracket.atEnd : Bracket → Cause
  | .list => .endInList
  | .object => .endInObject

def skipKey (rest : List Char) : Except Fault (List Char) :=
  match skipBlanks rest with
  | [] => Fault.onNext .endInObject []
  | '"' :: rest => do
    let (_, rest) ← skipString rest
    let (_, rest) ← colon rest
    return rest
  | rest => Fault.onNext .keyMustBeString rest

def Bracket.enter (bracket : Bracket) (rest : List Char) : Except Fault (List Char) :=
  match bracket with
  | .list => .ok rest
  | .object => skipKey rest

/-- After a value: closes brackets up to the next comma. The result is the text before the next
value with the brackets still open, or the text after the outermost one. -/
def skipClosings : List Bracket → List Char → Except Fault (List Bracket × List Char)
  | [], rest => .ok ([], rest)
  | bracket :: outer, rest =>
    match skipBlanks rest with
    | [] => Fault.onNext bracket.atEnd []
    | c :: rest =>
      if c = ',' then (bracket.enter rest).map fun rest => (bracket :: outer, rest)
      else if c = bracket.close then skipClosings outer rest
      else Fault.onNext bracket.commaOrEnd (c :: rest)

def skipOpening (bracket : Bracket) (outer : List Bracket) (rest : List Char) :
    Except Fault (List Bracket × List Char) :=
  match skipBlanks rest with
  | [] => Fault.onNext bracket.atEnd []
  | c :: rest =>
    if c = bracket.close then skipClosings outer rest
    else (bracket.enter (c :: rest)).map fun rest => (bracket :: outer, rest)

def skipScalar : Scanner Unit
  | 'n' :: rest => word ['u', 'l', 'l'] rest
  | 't' :: rest => word ['r', 'u', 'e'] rest
  | 'f' :: rest => word ['a', 'l', 's', 'e'] rest
  | '-' :: rest => skipNumber rest
  | '"' :: rest => skipString rest
  | [] => Fault.onNext .endInValue []
  | c :: rest =>
    if isDigit c then skipNumber (c :: rest) else Fault.onNext .expectedValue (c :: rest)

/-- An opening bracket, or a value without brackets and the brackets that close behind it. -/
def skipStep (open_ : List Bracket) (rest : List Char) :
    Except Fault (List Bracket × List Char) :=
  match skipBlanks rest with
  | '[' :: rest => skipOpening .list open_ rest
  | '\x7b' :: rest => skipOpening .object open_ rest
  | rest => do
    let (_, rest) ← skipScalar rest
    skipClosings open_ rest

def skipFrom : Nat → List Bracket → Scanner Unit
  | 0, _, rest => Fault.before .endInValue rest
  | fuel + 1, open_, rest => do
    match ← skipStep open_ rest with
    | ([], rest) => return ((), rest)
    | (left, rest) => skipFrom fuel left rest

/-- Every value takes at least one character. -/
def skipValue : Scanner Unit := fun rest => skipFrom (rest.length + 1) [] rest

/-! Whole texts -/

def finish {α : Type} (scanner : Scanner α) : List Char → Except Fault α := fun rest => do
  let (value, rest) ← scanner rest
  match skipBlanks rest with
  | [] => return value
  | rest => Fault.onNext .trailingCharacters rest

def readWith {α : Type} (scanner : Scanner α) (text : String) : Except ReadError α :=
  (finish scanner text.toList).mapError (Fault.locate text.toList)

def read (text : String) : Except ReadError Json := readWith (value nestingLimit) text

end Json

end SignalExchange
