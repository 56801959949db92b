import SignalExchange.ConfigError
import SignalExchange.Program.Files

/-! Everything that can end the program with a message. -/

set_option autoImplicit false

namespace SignalExchange

inductive ProgramError where
  | config (error : ConfigError)
  /-- A failure of the store that no configuration error stands for. -/
  | store (error : StoreError)
  | system (fault : SystemFault)
  | noHome
  deriving DecidableEq, Repr

namespace ProgramError

def message : ProgramError → String
  | .config error => error.message
  | .store error => error.message
  | .system fault => fault.message
  | .noHome => "HOME or USERPROFILE environment variable not set"

def exitCode : ProgramError → Nat
  | .config error => error.exitCode
  | _ => 1

end ProgramError

end SignalExchange
