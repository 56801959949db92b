/-! Failures of the store. -/

set_option autoImplicit false

namespace SignalExchange

inductive EngineFault where
  | noSuchTable (table : String)
  | repeatedKey (table column : String)
  | cannotOpen (path : String)
  /-- The address of a database names a host. -/
  | foreignHost (host : String)
  | noSuchMode (kind mode : String)
  /-- The mode gives more than an earlier one allowed. -/
  | modeNotAllowed (mode : String)
  | noSuchFileSystem (name : String)
  /-- The log beside a database needs memory that cannot be shared. -/
  | noLog
  | unreadable
  | readOnly
  deriving DecidableEq, Repr

def EngineFault.message : EngineFault → String
  | .noSuchTable table => s!"no such table: {table}"
  | .repeatedKey table column => s!"UNIQUE constraint failed: {table}.{column}"
  | .cannotOpen path => s!"unable to open database file: {path}"
  | .foreignHost host => s!"invalid uri authority: {host}"
  | .noSuchMode kind mode => s!"no such {kind} mode: {mode}"
  | .modeNotAllowed mode => s!"access mode not allowed: {mode}"
  | .noSuchFileSystem name => s!"no such vfs: {name}"
  | .noLog => "unable to open database file"
  | .unreadable => "disk I/O error"
  | .readOnly => "attempt to write a readonly database"

inductive StoreError where
  | engine (fault : EngineFault)
  | serialization (text : String)
  | migration (text : String)
  deriving DecidableEq, Repr

def StoreError.message : StoreError → String
  | .engine fault => "SQLite error: " ++ fault.message
  | .serialization text => "Serialization error: " ++ text
  | .migration text => "Migration error: " ++ text

end SignalExchange
