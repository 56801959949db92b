import SignalExchange.Arguments.Matches

/-! Matching the words of a command line against a command.

The words are taken one by one. A word is a subcommand, a long or short argument, a value of the
argument before it, or a positional value. The values of an argument are read when the next
argument begins, so a bad value is reported before a later mistake that has a place of its own.
-/

set_option autoImplicit false

namespace SignalExchange

/-- How far the matching of one command has come. -/
structure Progress where
  values : List (String × List Json)
  /-- Groups of which a member was given. -/
  groups : List String
  /-- An argument whose values are still being gathered. -/
  pending : Option (Argument × List String)
  /-- Only positional values follow. -/
  trailing : Bool
  placed : Nat

namespace Progress

def start : Progress := ⟨[], [], none, false, 0⟩

def isGiven (progress : Progress) (id : String) : Bool :=
  id ∈ progress.values.map (·.1) || id ∈ progress.groups

/-- Adds values after those that an argument has. -/
def append (id : String) (more : List Json) :
    List (String × List Json) → List (String × List Json)
  | [] => [(id, more)]
  | (key, old) :: rest =>
    if key = id then (key, old ++ more) :: rest else (key, old) :: append id more rest

def record (progress : Progress) (command : Command) (id : String) (values : List Json) :
    Progress :=
  { progress with
    values := append id values progress.values
    groups := progress.groups ++ (command.groupsOf id).map (·.id) }

def gathering? (progress : Progress) : Option (Argument × List String) :=
  match progress.pending with
  | some (argument, words) =>
    if words.length < argument.greatest then some (argument, words) else none
  | none => none

end Progress

namespace Argument

def split (argument : Argument) (word : String) : List String :=
  match argument.delimiter with
  | none => [word]
  | some mark => (word.toList.splitOn mark).map String.ofList

def valueWords (argument : Argument) (words : List String) : List String :=
  ((if words = [] then argument.whenBare else words).map argument.split).flatten

def countFits (argument : Argument) (words : List String) : Except ArgumentFault Unit :=
  if words = [] ∧ 0 < argument.least then .error (.invalidValue argument.display "")
  else if argument.least ≤ words.length ∧ words.length ≤ argument.greatest then .ok ()
  else .error (.wrongValueCount argument.display)

def readValue (argument : Argument) (word : String) : Except ArgumentFault Json :=
  match argument.kind.read word with
  | .ok value => .ok value
  | .error (.rejected message) => .error (.valueRejected argument.display word message)
  | .error .empty => .error (.invalidValue argument.display "")
  | .error .notListed => .error (.invalidValue argument.display word)

end Argument

namespace Command

def take (command : Command) (argument : Argument) (words : List String) (progress : Progress) :
    Except ArgumentFault Progress := do
  argument.countFits words
  match argument.action with
  | .showHelp => throw .helpShown
  | .showVersion => throw .versionShown
  | .setTrue =>
    if progress.isGiven argument.id then throw (.conflict argument.display)
    return progress.record command argument.id [.boolean true]
  | .set =>
    if progress.isGiven argument.id then throw (.conflict argument.display)
    let values ← (argument.valueWords words).mapM argument.readValue
    return progress.record command argument.id values
  | .append =>
    let values ← (argument.valueWords words).mapM argument.readValue
    return progress.record command argument.id values

def settle (command : Command) (progress : Progress) : Except ArgumentFault Progress :=
  match progress.pending with
  | none => .ok progress
  | some (argument, words) => command.take argument words { progress with pending := none }

def settleAndTake (command : Command) (argument : Argument) (words : List String)
    (progress : Progress) : Except ArgumentFault Progress := do
  command.take argument words (← command.settle progress)

def begin (command : Command) (argument : Argument) (attached : Option String)
    (progress : Progress) : Except ArgumentFault Progress :=
  match attached with
  | some word => command.settleAndTake argument [word] progress
  | none =>
    if argument.requireEquals then
      if argument.least = 0 then command.settleAndTake argument [] progress
      else .error (.equalsMissing argument.display)
    else (command.settle progress).map fun progress =>
      { progress with pending := some (argument, []) }

def splitLong (word : List Char) : String × Option String :=
  (String.ofList (word.takeWhile (· ≠ '=')),
    match word.dropWhile (· ≠ '=') with
    | [] => none
    | _ :: value => some (String.ofList value))

def takeLong (command : Command) (word : List Char) (progress : Progress) :
    Except ArgumentFault Progress :=
  let (name, attached) := splitLong word
  match command.byLong? name with
  | none => .error (.unknownArgument ("--" ++ name))
  | some argument =>
    if argument.takesValue then command.begin argument attached progress
    else
      match attached with
      | some value => .error (.tooManyValues argument.display value)
      | none => command.settleAndTake argument [] progress

def attachedRest : List Char → Option String
  | [] => none
  | '=' :: value => some (String.ofList value)
  | value => some (String.ofList value)

/-- A cluster of switches, the last of which may be an argument that takes a value. -/
def takeShorts (command : Command) : List Char → Progress → Except ArgumentFault Progress
  | [], progress => .ok progress
  | short :: rest, progress =>
    match command.byShort? short with
    | none => .error (.unknownArgument (String.ofList ['-', short]))
    | some argument =>
      if argument.takesValue then command.begin argument (attachedRest rest) progress
      else do
        let progress ← command.settleAndTake argument [] progress
        command.takeShorts rest progress

def takePositional (command : Command) (word : String) (progress : Progress) :
    Except ArgumentFault Progress :=
  match command.positionals[progress.placed]? with
  | none =>
    if command.hasSubcommands && command.positionals.isEmpty then .error (.unknownSubcommand word)
    else .error (.unknownArgument word)
  | some argument => do
    let progress ← command.settleAndTake argument [word] progress
    return { progress with placed := progress.placed + 1 }

inductive Step where
  | enter (sub : Command)
  | explain
  | proceed (progress : Progress)

def takeWord (command : Command) (word : String) (progress : Progress) :
    Except ArgumentFault Progress :=
  match word.toList, progress.gathering? with
  | ['-', '-'], _ => .ok { progress with trailing := true }
  | '-' :: '-' :: long, _ => command.takeLong long progress
  | '-' :: short :: rest, _ => command.takeShorts (short :: rest) progress
  | _, some (argument, words) => .ok { progress with pending := some (argument, words ++ [word]) }
  | _, none => command.takePositional word progress

def step (command : Command) (word : String) (progress : Progress) : Except ArgumentFault Step :=
  if progress.trailing then (command.takePositional word progress).map .proceed
  else
    match progress.gathering?, command.subcommand? word with
    | none, some sub => .ok (.enter sub)
    | gathering, _ =>
      if gathering.isNone ∧ command.hasSubcommands ∧ word = helpName then .ok .explain
      else (command.takeWord word progress).map .proceed

/-- The names after the help of a command lead to the one that is explained. -/
def explain (command : Command) : List String → ArgumentFault
  | [] => .helpShown
  | name :: rest =>
    match command.subcommand? name with
    | some sub => sub.explain rest
    | none =>
      if command.hasSubcommands ∧ name = helpName ∧ rest = [] then .helpShown
      else .unknownSubcommand name

def conflicting? (command : Command) (values : List (String × List Json)) : Option Argument :=
  values.findSome? fun entry =>
    (command.byId? entry.1).filter fun argument =>
      (command.groupsOf argument.id).any fun group =>
        group.members.any fun other =>
          other ≠ argument.id && (values.map (·.1)).contains other

def missing? (command : Command) (values : List (String × List Json)) : Option Argument :=
  command.arguments.find? fun argument =>
    argument.required && !(values.map (·.1)).contains argument.id

/-- After the last word of a command: what it was given has to fit together. -/
def close (command : Command) (sub : Option (String × Matches)) (progress : Progress) :
    Except ArgumentFault Matches := do
  let progress ← command.settle progress
  if sub.isNone && command.helpWhenBare && progress.values.isEmpty then throw .helpShownWhenBare
  if sub.isNone && command.subcommandRequired then throw .missingSubcommand
  if let some argument := command.conflicting? progress.values then
    throw (.conflict argument.display)
  if let some argument := command.missing? progress.values then
    throw (.missingRequired argument.display)
  return .mk progress.values sub

def parseFrom : List String → Command → Progress → Except ArgumentFault Matches
  | [], command, progress => command.close none progress
  | word :: rest, command, progress => do
    match ← command.step word progress with
    | .explain => throw (command.explain rest)
    | .proceed progress => parseFrom rest command progress
    | .enter sub =>
      let inner ← parseFrom rest (sub.inheriting command.globals) .start
      command.close (some (sub.name, inner)) progress

def parse (command : Command) (words : List String) : Except ArgumentFault Matches :=
  parseFrom words command .start

end Command

end SignalExchange
