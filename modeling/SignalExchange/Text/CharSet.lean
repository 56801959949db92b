/-! Sets of characters: ranges of their numbers, and white space as the Unicode standard lists it. -/

set_option autoImplicit false

namespace SignalExchange

/-- The number is in one of the ranges, the ends of which belong to them. -/
def within (ranges : List (Nat × Nat)) (n : Nat) : Bool :=
  ranges.any fun (first, last) => first ≤ n && n ≤ last

/-- The property White_Space, which has 25 characters. -/
def isWhiteSpace (c : Char) : Bool :=
  let n := c.toNat
  (0x09 ≤ n && n ≤ 0x0d) || n = 0x20 || n = 0x85 || n = 0xa0 || n = 0x1680 ||
    (0x2000 ≤ n && n ≤ 0x200a) || n = 0x2028 || n = 0x2029 || n = 0x202f || n = 0x205f ||
    n = 0x3000

def isBlankText (text : String) : Bool := text.toList.all isWhiteSpace

end SignalExchange
