import SignalExchange.Program.Error

/-! Where the database is.

The registry decides what the command line may hold, so the database has to be found before the
arguments can be matched.
-/

set_option autoImplicit false

namespace SignalExchange

structure Environment where
  lookup? : String → Option String
  workingDirectory : Path
  /-- The home that the system records for the account of the user, if it records one. -/
  accountHome : Option String

namespace DataDirectory

def flag : String := "--data-dir"

def attachedFlag : List Char := (flag ++ "=").toList

def withoutStart : List Char → List Char → Option (List Char)
  | [], text => some text
  | _ :: _, [] => none
  | c :: rest, d :: text => if c = d then withoutStart rest text else none

/-- The first value of the flag before any `--`, wherever it stands. -/
def fromWords : List String → Option String
  | [] => none
  | word :: rest =>
    if word = "--" then none
    else if word = flag then rest.head?
    else
      match withoutStart attachedFlag word.toList with
      | some value => some (String.ofList value)
      | none => fromWords rest

def inHome (home : String) : String := Path.join home ".sigex"

/-- The flag decides, then the variable for the program, then the home directory. What the variables
say of the home goes before the record of the account. -/
def locate (environment : Environment) (words : List String) : Except ProgramError String :=
  match fromWords words, environment.lookup? "SIGEX_HOME" with
  | some directory, _ => .ok directory
  | none, some directory =>
    if directory ≠ "" then .ok directory else fromHome
  | none, none => fromHome
where
  fromHome : Except ProgramError String :=
    match ((environment.lookup? "HOME").or (environment.lookup? "USERPROFILE")).or
      environment.accountHome with
    | some home => .ok (inHome home)
    | none => .error .noHome

end DataDirectory

end SignalExchange
