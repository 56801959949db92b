import SignalExchange.Json.Reader

/-! Reading values of a required shape straight from a text.

A scalar of another kind is passed before it is refused, so its own faults come first; a bracket
is refused where it opens. The length of a list and the fields of a record are judged inside
their brackets, and such a fault is placed after the closing one.
-/

set_option autoImplicit false

namespace SignalExchange

namespace Json

def asString : Json → Except Cause String
  | .string text => .ok text
  | other => .error (.wrongType other.found "a string")

def asBoolean : Json → Except Cause Bool
  | .boolean value => .ok value
  | other => .error (.wrongType other.found "a boolean")

def asInteger : Json → Except Cause Int
  | .integer value =>
    if Integer.InRange value then .ok value
    else .error (.wrongValue (.integer value) "i64")
  | other => .error (.wrongType other.found "i64")

/-- Refuses a bracket by its kind, and a scalar after passing it. -/
def refuse {α : Type} (expected : String) (rest : List Char) : Except Fault α :=
  match rest with
  | '[' :: rest => Fault.before (.wrongType .sequence expected) ('[' :: rest)
  | '\x7b' :: rest => Fault.before (.wrongType .map expected) ('\x7b' :: rest)
  | rest => do
    let (other, rest) ← value 0 rest
    Fault.before (.wrongType other.found expected) rest

def scalar {α : Type} (accept : Json → Except Cause α) (expected : String) : Scanner α :=
  fun rest =>
    match skipBlanks rest with
    | '[' :: rest => refuse expected ('[' :: rest)
    | '\x7b' :: rest => refuse expected ('\x7b' :: rest)
    | rest => do
      let (read, rest) ← value 0 rest
      match accept read with
      | .ok accepted => return (accepted, rest)
      | .error cause => Fault.before cause rest

def stringValue : Scanner String := scalar asString "a string"

def booleanValue : Scanner Bool := scalar asBoolean "a boolean"

def integerValue : Scanner Int := scalar asInteger "i64"

def optionalValue {α : Type} (item : Scanner α) : Scanner (Option α) := fun rest =>
  match skipBlanks rest with
  | 'n' :: rest => do
    let (_, rest) ← word ['u', 'l', 'l'] rest
    return (none, rest)
  | rest => do
    let (value, rest) ← item rest
    return (some value, rest)

def listOf {α : Type} (expected : String) (body : Nat → Scanner α) : Nat → Scanner α :=
  fun levels rest =>
    match skipBlanks rest, levels with
    | '[' :: rest, 0 => Fault.onNext .tooDeep ('[' :: rest)
    | '[' :: rest, levels + 1 => inList (body levels) rest
    | rest, _ => refuse expected rest

def objectOf {α : Type} (expected : String) (body : Nat → Scanner α) : Nat → Scanner α :=
  fun levels rest =>
    match skipBlanks rest, levels with
    | '\x7b' :: rest, 0 => Fault.onNext .tooDeep ('\x7b' :: rest)
    | '\x7b' :: rest, levels + 1 => inObject (body levels) rest
    | rest, _ => refuse expected rest

/-- A record is written as an object, or as the list of its fields in order. -/
def recordOf {α : Type} (expected : String) (members elements : Nat → Scanner α) :
    Nat → Scanner α :=
  fun levels rest =>
    match skipBlanks rest with
    | '[' :: rest => listOf expected elements levels ('[' :: rest)
    | rest => objectOf expected members levels rest

def sequence {α : Type} (item : Nat → Scanner α) : Nat → Scanner (List α) :=
  listOf "a sequence" fun levels => allItems (item levels)

/-- The item at a given index of a list whose length the reader knows. -/
def element? {α : Type} (index : Nat) (item : Scanner α) : Scanner (Option α) := fun rest => do
  match ← nextItem (index = 0) rest with
  | (false, rest) => return (none, rest)
  | (true, rest) =>
    let (value, rest) ← item rest
    return (some value, rest)

def element {α : Type} (index : Nat) (expected : String) (item : Scanner α) : Scanner α :=
  fun rest => do
    match ← element? index item rest with
    | (some value, rest) => return (value, rest)
    | (none, rest) => Fault.waiting (.wrongLength index expected) rest

def pair {α β : Type} (first : Scanner α) (second : Scanner β) : Nat → Scanner (α × β) :=
  listOf "a tuple of size 2" fun _ rest => do
    let (a, rest) ← element 0 "a tuple of size 2" first rest
    let (b, rest) ← element 1 "a tuple of size 2" second rest
    return ((a, b), rest)

def member {α : Type} (item : Scanner α) : Scanner α := fun rest => do
  let (_, rest) ← colon rest
  item rest

def once {α : Type} (name : String) (held : Option α) (item : Scanner α) : Scanner α :=
  fun rest =>
    match held with
    | some _ => Fault.waiting (.duplicateField name) rest
    | none => member item rest

def required {α : Type} (name : String) (held : Option α) (rest : List Char) : Except Fault α :=
  match held with
  | some value => .ok value
  | none => Fault.waiting (.missingField name) rest

end Json

end SignalExchange
