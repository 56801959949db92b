import SignalExchange.Number.Binary64

/-! JSON documents as the configuration holds them.

An integer that fits 64 bits, signed or unsigned, stays an integer; every other number is a
double. The entries of an object ascend by key.
-/

set_option autoImplicit false

namespace SignalExchange

inductive Json where
  | null
  | boolean (value : Bool)
  | integer (value : Int)
  | double (value : Binary64)
  | string (text : String)
  | array (items : List Json)
  | object (entries : List (String × Json))
  deriving BEq, Repr

end SignalExchange
