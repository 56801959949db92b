import SignalExchange.Database.Basic
import SignalExchange.Text.Digits
import SignalExchange.Text.Percent

/-! Where a database is, and what may be done to it, as a text says.

A text is the path of a file unless it starts with `file:`. Such an address is percent coded, may
carry parameters behind a question mark, and ends before a number sign.
-/

set_option autoImplicit false

namespace SignalExchange

inductive Access where
  | readOnly
  | readWrite
  | create
  | memory
  deriving DecidableEq, Repr

namespace Access

def ofName? : String → Option Access
  | "ro" => some .readOnly
  | "rw" => some .readWrite
  | "rwc" => some .create
  | "memory" => some .memory
  | _ => none

def rank : Access → Nat
  | .memory => 0
  | .readOnly => 1
  | .readWrite => 2
  | .create => 3

/-- Behind one mode another may follow that gives no more. Nothing bounds what follows memory. -/
def allows (given wanted : Access) : Bool := given = .memory || wanted.rank ≤ given.rank

end Access

structure DatabaseLocation where
  file : String
  access : Access
  fileSystem : String
  /-- Nobody else uses the file, so nothing guards it. -/
  unguarded : Bool
  isImmutable : Bool
  deriving DecidableEq, Repr

namespace DatabaseLocation

def ofPath (path : String) : DatabaseLocation := ⟨path, .create, "unix", false, false⟩

/-- The systems that keep a log beside a database, which all who use it share. -/
def loggingFileSystems : List String := ["unix", "unix-excl"]

def memoryFileSystem : String := "memdb"

def fileSystems : List String :=
  loggingFileSystems ++ ["unix-none", "unix-dotfile", memoryFileSystem]

def isTransient (location : DatabaseLocation) : Bool :=
  location.access = .memory || location.fileSystem = memoryFileSystem ||
    location.file = "" || location.file = ":memory:"

def keepsLog (location : DatabaseLocation) : Bool :=
  location.fileSystem ∈ loggingFileSystems && !location.unguarded

/-- What a file gives that is there, with or without a log, once it is up to date. To bring it up
to date is to write to it. -/
def opened (location : DatabaseLocation) (logged : Bool) (database : Database) :
    Except StoreError Database :=
  if location.isImmutable then do
    let _ ← database.migrate
    throw (.engine .readOnly)
  else if logged && !location.keepsLog then .error (.engine .noLog)
  else if location.access = .readOnly then do
    if logged then let _ ← database.migrate
    throw (.engine .readOnly)
  else database.migrate

def afterScheme? : List Char → Option (List Char)
  | 'f' :: 'i' :: 'l' :: 'e' :: ':' :: rest => some rest
  | _ => none

def afterHost : List Char → Except EngineFault (List Char)
  | '/' :: '/' :: rest =>
    let host := String.ofList (rest.takeWhile (· ≠ '/'))
    if host = "" ∨ host = "localhost" then .ok (rest.dropWhile (· ≠ '/'))
    else .error (.foreignHost host)
  | rest => .ok rest

/-- A part of an address. A zero byte ends it, and bytes that are no text are characters. -/
def decode (coded : List Char) : String :=
  let bytes := (percentDecode coded).takeWhile (· ≠ 0)
  (textOfBytes? bytes).getD (String.ofList (bytes.map fun byte => Char.ofNat byte.toNat))

def parameter (coded : List Char) : String × String :=
  (decode (coded.takeWhile (· ≠ '=')), decode ((coded.dropWhile (· ≠ '=')).drop 1))

def withParameter (location : DatabaseLocation) (parameter : String × String) :
    Except EngineFault DatabaseLocation :=
  match parameter with
  | ("vfs", name) => .ok { location with fileSystem := name }
  | ("cache", mode) =>
    if mode = "shared" ∨ mode = "private" then .ok location
    else .error (.noSuchMode "cache" mode)
  | ("mode", mode) =>
    match Access.ofName? mode with
    | none => .error (.noSuchMode "access" mode)
    | some access =>
      if location.access.allows access then .ok { location with access := access }
      else .error (.modeNotAllowed mode)
  | _ => .ok location

/-- The number at the start of a value, if it fits into 32 bits with a sign. -/
def leadingNumber (value : List Char) : Nat :=
  let n := digitsValue (digitRun value).1
  if n < 2147483648 then n else 0

/-- A value that turns a parameter on. Of a number only the last byte counts. -/
def turnsOn (value : String) : Bool :=
  if value.toList.head?.any isDigit then leadingNumber value.toList % 256 ≠ 0
  else value.toLower ∈ ["on", "yes", "true"]

def isOn (parameters : List (String × String)) (name : String) : Bool :=
  (parameters.find? fun parameter => parameter.1 = name).any fun parameter =>
    turnsOn parameter.2

def ofAddress (address : List Char) : Except EngineFault DatabaseLocation := do
  let rest ← afterHost address
  let rest := rest.takeWhile (· ≠ '#')
  let parameters := (((rest.dropWhile (· ≠ '?')).drop 1).splitOn '&').map parameter
  let location ← parameters.foldlM withParameter
    (ofPath (decode (rest.takeWhile (· ≠ '?'))))
  if location.fileSystem ∈ fileSystems then
    return { location with
      unguarded := isOn parameters "nolock"
      isImmutable := isOn parameters "immutable" }
  else throw (.noSuchFileSystem location.fileSystem)

def read (text : String) : Except EngineFault DatabaseLocation :=
  match afterScheme? text.toList with
  | some address => ofAddress address
  | none => .ok (ofPath text)

end DatabaseLocation

end SignalExchange
