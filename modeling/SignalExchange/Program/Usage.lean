import SignalExchange.Program.CommandTree

/-! What the program tells about its arguments. -/

set_option autoImplicit false

namespace SignalExchange

def ArgumentFault.message : ArgumentFault → String
  | .helpShown | .versionShown | .helpShownWhenBare => ""
  | .invalidValue argument value => s!"invalid value '{value}' for '{argument}'"
  | .valueRejected argument value message =>
    s!"invalid value '{value}' for '{argument}': {message}"
  | .wrongValueCount argument => s!"wrong number of values for '{argument}'"
  | .tooManyValues argument value => s!"unexpected value '{value}' for '{argument}'"
  | .conflict argument => s!"the argument '{argument}' cannot be used here"
  | .unknownArgument argument => s!"unexpected argument '{argument}' found"
  | .missingRequired argument => s!"the argument '{argument}' is required"
  | .equalsMissing argument => s!"an equals sign is needed after '{argument}'"
  | .missingSubcommand => "a subcommand is required"
  | .unknownSubcommand name => s!"unrecognized subcommand '{name}'"

namespace Usage

def argumentLine (argument : Argument) : String :=
  "  " ++ String.intercalate " " (argument.display :: argument.valueNames.getD []) ++ "  " ++
    argument.help

def commandLine (command : Command) : String := s!"  {command.name}  {command.about}"

def ofCommand (command : Command) : List String :=
  command.about :: command.arguments.map argumentLine ++ command.subcommands.map commandLine

/-- The commands that are there whatever is registered. -/
def text : String :=
  String.intercalate "\n"
    (ofCommand (CommandTree.root []) ++ "" :: ofCommand (CommandTree.config []))

end Usage

end SignalExchange
