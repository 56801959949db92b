import SignalExchange.Arguments.Command

/-! What the arguments of a command line were matched to, and why they can fail to match. -/

set_option autoImplicit false

namespace SignalExchange

inductive ArgumentFault where
  | helpShown
  | versionShown
  | helpShownWhenBare
  | invalidValue (argument value : String)
  | valueRejected (argument value message : String)
  | wrongValueCount (argument : String)
  | tooManyValues (argument value : String)
  | conflict (argument : String)
  | unknownArgument (argument : String)
  | missingRequired (argument : String)
  | equalsMissing (argument : String)
  | missingSubcommand
  | unknownSubcommand (name : String)
  deriving DecidableEq, Repr

/-- Help and version texts are asked for, all else is a mistake. -/
def ArgumentFault.exitCode : ArgumentFault → Nat
  | .helpShown | .versionShown => 0
  | _ => 2

/-- The values of the arguments of a command, in the order in which these were first given,
and the matches of the subcommand that followed. What is kept for groups is left out: it is read
only where an argument has the identifier of a group. -/
inductive Matches where
  | mk (values : List (String × List Json)) (subcommand : Option (String × Matches))

namespace Matches

def values : Matches → List (String × List Json)
  | mk values _ => values

def subcommand : Matches → Option (String × Matches)
  | mk _ subcommand => subcommand

def all? (found : Matches) (id : String) : Option (List Json) :=
  (found.values.find? fun entry => entry.1 = id).map (·.2)

def first? (found : Matches) (id : String) : Option Json :=
  (found.all? id).bind (·.head?)

def text? (found : Matches) (id : String) : Option String :=
  match found.first? id with
  | some (.string text) => some text
  | _ => none

def integer? (found : Matches) (id : String) : Option Int :=
  match found.first? id with
  | some (.integer n) => some n
  | _ => none

def isOn (found : Matches) (id : String) : Bool := (found.all? id).isSome

/-- The values of a global argument: the innermost command that was given it decides. -/
def global? (id : String) : Matches → Option (List Json)
  | mk values none => (values.find? fun entry => entry.1 = id).map (·.2)
  | mk values (some (_, inner)) =>
    match global? id inner with
    | some found => some found
    | none => (values.find? fun entry => entry.1 = id).map (·.2)

end Matches

end SignalExchange
