import SignalExchange.Database.Location

/-! Directories, and the databases in them.

Directories are made with those around them, and a failure leaves the ones that were made by then.
-/

set_option autoImplicit false

namespace SignalExchange

/-- The way from the root to a file or directory: a slash and a name for each step. -/
structure Path where
  text : String
  deriving DecidableEq, Repr

inductive SystemFault where
  | notFound
  | fileExists
  | notADirectory
  | nameTooLong
  | zeroByte
  deriving DecidableEq, Repr

def SystemFault.message : SystemFault → String
  | .notFound => "No such file or directory (os error 2)"
  | .fileExists => "File exists (os error 17)"
  | .notADirectory => "Not a directory (os error 20)"
  | .nameTooLong => "File name too long (os error 36)"
  | .zeroByte => "file name contained an unexpected NUL byte"

namespace Path

def segments (text : String) : List String :=
  ((text.toList.splitOn '/').map String.ofList).filter (· ≠ "")

/-- The names in a text, without those that stand for the same directory. -/
def names (text : String) : List String := (segments text).filter (· ≠ ".")

def isAbsolute (text : String) : Bool := text.toList.head? = some '/'

def endsHere (text : String) : Bool := (segments text).getLast? = some "."

def join (directory name : String) : String :=
  if directory = "" ∨ directory.toList.getLast? = some '/' then directory ++ name
  else directory ++ "/" ++ name

def root : Path := ⟨""⟩

def child (path : Path) (name : String) : Path := ⟨path.text ++ "/" ++ name⟩

def outer (path : Path) : Path :=
  ⟨String.ofList ((path.text.toList.reverse.dropWhile (· ≠ '/')).drop 1).reverse⟩

def ofText (text : String) : Path := (names text).foldl child root

def size (path : Path) : Nat := path.text.utf8ByteSize

def nameLimit : Nat := 255

def textLimit : Nat := 4095

/-- The bytes on the way to a database. -/
def wayLimit : Nat := 511

/-- The bytes to a database itself; the names of the files beside it are longer. -/
def databaseLimit : Nat := 504

end Path

structure FileTree where
  directories : List Path
  databases : List (Path × Database)
  logged : List Path
  deriving Repr

/-- An open database, with the file that keeps it. One without a file is gone in the end. -/
structure OpenDatabase where
  database : Database
  file : Option Path
  deriving Repr

abbrev FilesM (ε : Type) := ExceptT ε (StateM FileTree)

namespace FileTree

def hasDirectory (files : FileTree) (path : Path) : Bool :=
  path = .root || files.directories.contains path

def database? (files : FileTree) (path : Path) : Option Database :=
  (files.databases.find? fun entry => entry.1 = path).map (·.2)

def hasDatabase (files : FileTree) (path : Path) : Bool := (files.database? path).isSome

def setDatabase (files : FileTree) (path : Path) (database : Database) : FileTree :=
  { files with databases :=
      (path, database) :: files.databases.filter fun entry => entry.1 ≠ path }

def isLogged (files : FileTree) (path : Path) : Bool := files.logged.contains path

def addLog (files : FileTree) (path : Path) : FileTree :=
  { files with logged := path :: files.logged.filter (· ≠ path) }

def addDirectory (files : FileTree) (path : Path) : FileTree :=
  { files with directories := path :: files.directories }

/-- Makes the directories that are missing on a way from an existing one. A way that ends with the
directory itself does not make the last of them. Once a directory has been made, those after it
are made one by one, so that a file is met as an end and no longer on the way. -/
def makeWay (endsHere : Bool) (made : Bool) (at_ : Path) : List String → FilesM SystemFault Unit
  | [] => return
  | name :: rest => do
    let files ← get
    let last := rest.isEmpty
    let path := at_.child name
    if name = ".." then makeWay endsHere made at_.outer rest
    else if Path.nameLimit < name.utf8ByteSize then throw .nameTooLong
    else if files.hasDatabase path then
      throw (if (last && !endsHere) || (made && !last) then .fileExists else .notADirectory)
    else if files.hasDirectory path then makeWay endsHere made path rest
    else if last && endsHere then throw .notFound
    else
      set (files.addDirectory path)
      makeWay endsHere true path rest

def makeDirectory (working : Path) (text : String) : FilesM SystemFault Unit :=
  if '\x00' ∈ text.toList then throw .zeroByte
  else if Path.textLimit < text.utf8ByteSize then throw .nameTooLong
  else
    makeWay (Path.endsHere text) false (if Path.isAbsolute text then .root else working)
      (Path.names text)

/-- The file at the end of a way. The way is not entered: a name that is not there may be on it,
but no file. -/
def follow (files : FileTree) (at_ : Path) : List String → Option Path
  | [] => some at_
  | name :: rest =>
    let path := at_.child name
    if name = ".." then files.follow at_.outer rest
    else if (Path.nameLimit < name.utf8ByteSize && files.hasDirectory at_) ||
        Path.wayLimit < path.size || files.hasDatabase at_ then none
    else files.follow path rest

def file? (files : FileTree) (working : Path) (text : String) : Option Path := do
  let path ← files.follow (if Path.isAbsolute text then .root else working) (Path.names text)
  if Path.databaseLimit < path.size then none else return path

/-- The path of the file that a location names, which is made if it is missing and may be made. -/
def reach (working : Path) (text : String) (location : DatabaseLocation) :
    FilesM StoreError Path := do
  let files ← get
  let cannotOpen := StoreError.engine (.cannotOpen text)
  let some path := files.file? working location.file | throw cannotOpen
  if files.hasDirectory path then
    throw (if location.access = .readOnly then .engine .unreadable else cannotOpen)
  if !files.hasDirectory path.outer then throw cannotOpen
  if !files.hasDatabase path then
    if location.access ≠ .create then throw cannotOpen
    set (files.setDatabase path .blank)
  return path

/-- Opens the database that a text names, and brings it up to date. One that cannot be brought up
to date stays as it is. -/
def openDatabase (working : Path) (text : String) : FilesM StoreError OpenDatabase := do
  let location ← MonadExcept.ofExcept ((DatabaseLocation.read text).mapError .engine)
  if location.isTransient then
    return ⟨← MonadExcept.ofExcept Database.blank.migrate, none⟩
  let path ← reach working text location
  let files ← get
  let database ← MonadExcept.ofExcept
    (location.opened (files.isLogged path) ((files.database? path).getD .blank))
  set ((if location.keepsLog then files.addLog path else files).setDatabase path database)
  return ⟨database, some path⟩

def close (files : FileTree) (opened : OpenDatabase) : FileTree :=
  match opened.file with
  | some path => files.setDatabase path opened.database
  | none => files

end FileTree

end SignalExchange
