import SignalExchange.Text.Digits

/-! The tokens of ThreatExchange applications. -/

set_option autoImplicit false

namespace SignalExchange

def isAsciiLetter (c : Char) : Bool := ('a' ≤ c && c ≤ 'z') || ('A' ≤ c && c ≤ 'Z')

def isSecretPart (c : Char) : Bool := isAsciiLetter c || isDigit c || c = '_' || c = '-'

/-- The digits of an application, a bar, and a secret of letters, digits, `_` and `-`. -/
def isAppToken (token : String) : Bool :=
  let application := token.toList.takeWhile (· ≠ '|')
  match token.toList.dropWhile (· ≠ '|') with
  | [] => false
  | _ :: secret =>
    !application.isEmpty && application.all isDigit && !secret.isEmpty &&
      secret.all isSecretPart

end SignalExchange
