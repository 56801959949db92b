import SignalExchange.Json.Value
import SignalExchange.Number.Decimal
import SignalExchange.Text.Integer

/-! Values of command line arguments, read into the values that records hold. -/

set_option autoImplicit false

namespace SignalExchange

inductive ValueKind where
  | text
  /-- A path may not be empty. -/
  | path
  | integer
  /-- Zero or one. -/
  | toggle
  /-- A finite number. -/
  | number
  | boolean
  | choice (members : List String)
  deriving DecidableEq, Repr

/-- Why a word is no value of a kind; some kinds give no reason. -/
inductive ValueFault where
  | empty
  | notListed
  | rejected (message : String)
  deriving DecidableEq, Repr

namespace ValueKind

def readInteger (word : String) : Except ValueFault Int :=
  (Integer.read word.toList).mapError fun fault => .rejected fault.message

def read : ValueKind → String → Except ValueFault Json
  | .text, word => .ok (.string word)
  | .path, word => if word = "" then .error .empty else .ok (.string word)
  | .integer, word => (readInteger word).map .integer
  | .toggle, word => do
    let n ← readInteger word
    if n = 0 ∨ n = 1 then return .integer n
    else throw (.rejected (String.ofList (Integer.text n) ++ " is not in 0..=1"))
  | .number, word =>
    match Decimal.read word.toList with
    | .ok (some x) => .ok (.double x)
    | .ok none => .error (.rejected s!"'{word}' is not a finite number")
    | .error fault => .error (.rejected fault.message)
  | .boolean, word =>
    if word = "true" then .ok (.boolean true)
    else if word = "false" then .ok (.boolean false)
    else .error .notListed
  | .choice members, word =>
    if word ∈ members then .ok (.string word) else .error .notListed

end ValueKind

end SignalExchange
