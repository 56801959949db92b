import SignalExchange.Ascending
import SignalExchange.Json.Value
import SignalExchange.Text.Integer

/-! Documents that a text gives back exactly.

A document is exact when no number in it is a double, its integers fit 64 bits with or without a
sign, and its objects ascend. The depth of a document counts the brackets that enclose its
innermost value.
-/

set_option autoImplicit false

namespace SignalExchange

/-- Integers that a document keeps as integers. -/
def Integer.FitsDocument (n : Int) : Prop := Integer.least ≤ n ∧ n ≤ Integer.greatestUnsigned

namespace Json

mutual

def Exact : Json → Prop
  | .integer n => Integer.FitsDocument n
  | .double _ => False
  | .array items => ExactItems items
  | .object entries => Ascending entries ∧ ExactEntries entries
  | _ => True

def ExactItems : List Json → Prop
  | [] => True
  | item :: rest => item.Exact ∧ ExactItems rest

def ExactEntries : List (String × Json) → Prop
  | [] => True
  | (_, value) :: rest => value.Exact ∧ ExactEntries rest

end

mutual

def depth : Json → Nat
  | .array items => itemsDepth items + 1
  | .object entries => entriesDepth entries + 1
  | _ => 0

def itemsDepth : List Json → Nat
  | [] => 0
  | item :: rest => max item.depth (itemsDepth rest)

def entriesDepth : List (String × Json) → Nat
  | [] => 0
  | (_, value) :: rest => max value.depth (entriesDepth rest)

end

end Json

end SignalExchange
