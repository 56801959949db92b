import SignalExchange.Arguments.Value

/-! Commands, their arguments and their subcommands. -/

set_option autoImplicit false

namespace SignalExchange

inductive Action where
  /-- Holds the values of its one occurrence. -/
  | set
  | setTrue
  /-- Holds the values of all its occurrences. -/
  | append
  | showHelp
  | showVersion
  deriving DecidableEq, Repr

/-- An argument without a long and a short name is given by its place. -/
structure Argument where
  id : String
  long : Option String := none
  short : Option Char := none
  help : String := ""
  action : Action
  kind : ValueKind := .text
  required : Bool := false
  /-- An occurrence takes at least this many values. -/
  least : Nat := 1
  greatest : Nat := 1
  requireEquals : Bool := false
  /-- The values of an occurrence without any. -/
  whenBare : List String := []
  delimiter : Option Char := none
  valueNames : Option (List String) := none
  /-- Also an argument of every subcommand. -/
  global : Bool := false
  deriving DecidableEq, Repr

namespace Argument

def switch (id : String) (long : Option String) (short : Option Char) (help : String) : Argument :=
  { id := id, long := long, short := short, help := help, action := .setTrue,
    least := 0, greatest := 0 }

def isPositional (argument : Argument) : Bool :=
  argument.long.isNone && argument.short.isNone

def takesValue (argument : Argument) : Bool := 0 < argument.greatest

def display (argument : Argument) : String :=
  match argument.long, argument.short with
  | some long, _ => "--" ++ long
  | none, some short => String.ofList ['-', short]
  | none, none => argument.id

def helpSwitch : Argument :=
  { id := "help", long := some "help", short := some 'h', action := .showHelp,
    least := 0, greatest := 0 }

def versionSwitch : Argument :=
  { id := "version", long := some "version", short := some 'V', action := .showVersion,
    least := 0, greatest := 0 }

end Argument

/-- Arguments of which at most one may be given. -/
structure Group where
  id : String
  members : List String
  deriving DecidableEq, Repr

structure Command where
  name : String
  about : String := ""
  longAbout : String := ""
  arguments : List Argument := []
  groups : List Group := []
  subcommands : List Command := []
  subcommandRequired : Bool := false
  helpWhenBare : Bool := false
  deriving Repr

namespace Command

def helpName : String := "help"

def globals (command : Command) : List Argument := command.arguments.filter (·.global)

/-- Adds arguments of the commands above, unless one of the same id is there. -/
def inheriting (command : Command) (inherited : List Argument) : Command :=
  { command with
    arguments := command.arguments ++
      inherited.filter fun argument => argument.id ∉ command.arguments.map (·.id) }

def allArguments (command : Command) : List Argument := command.arguments ++ [Argument.helpSwitch]

def byLong? (command : Command) (long : String) : Option Argument :=
  command.allArguments.find? fun argument => argument.long = some long

def byShort? (command : Command) (short : Char) : Option Argument :=
  command.allArguments.find? fun argument => argument.short = some short

def byId? (command : Command) (id : String) : Option Argument :=
  command.arguments.find? fun argument => argument.id = id

def positionals (command : Command) : List Argument := command.arguments.filter (·.isPositional)

def groupsOf (command : Command) (id : String) : List Group :=
  command.groups.filter fun group => id ∈ group.members

def hasSubcommands (command : Command) : Bool := !command.subcommands.isEmpty

def subcommand? (command : Command) (name : String) : Option Command :=
  command.subcommands.find? fun sub => sub.name = name

end Command

end SignalExchange
