import SignalExchange.Database.Fault
import SignalExchange.Json.Fault
import SignalExchange.Schema.Editable

/-! The errors that end a configuration command. -/

set_option autoImplicit false

namespace SignalExchange

inductive ConfigError where
  | schema (api message : String)
  | userInput (message : String)
  | missingField (field : String)
  | invalidValue (field message : String)
  | duplicateCollab (name : String)
  | crossApi (existing target : String)
  | collabNotFound (name : String)
  | editTargetMissing (name : String)
  | duplicateRegistration (kind name : String)
  | incompatibleSignalType (signalType contentType : String)
  | unknownExtension (module : String)
  | extensionAlreadyAdded (module : String)
  | extensionNotAdded (module : String)
  | instantiation (api message : String)
  | storage (error : StoreError)
  | remote (message : String)
  | internal (message : String)
  deriving DecidableEq, Repr

namespace ConfigError

def ofSchemaFault (api : String) (fault : SchemaFault) : ConfigError :=
  .schema api fault.message

def ofMismatch (field : String) (mismatch : FieldType.Mismatch) : ConfigError :=
  .invalidValue field mismatch.message

def ofReadError (error : Json.ReadError) : ConfigError :=
  .userInput ("Invalid JSON: " ++ error.message)

def message : ConfigError → String
  | .schema api message => s!"Schema error in '{api}': {message}"
  | .userInput message => message
  | .missingField field => "Missing required field: --" ++ flagName field
  | .invalidValue field message => s!"Invalid value for '{field}': {message}"
  | .duplicateCollab name => s!"There's an existing collaboration named \"{name}\""
  | .crossApi existing _ =>
    s!"The existing collab is for the {existing} api, delete that one first"
  | .collabNotFound name => s!"No such collab: {name}"
  | .editTargetMissing name =>
    s!"No such config \"{name}\"! Did you mean to use --create?"
  | .duplicateRegistration kind name => s!"Duplicate {kind} registration: '{name}'"
  | .incompatibleSignalType signalType contentType =>
    s!"Signal type '{signalType}' references unknown content type '{contentType}'"
  | .unknownExtension module => s!"No extension module named '{module}'"
  | .extensionAlreadyAdded module => s!"Extension '{module}' is already added"
  | .extensionNotAdded module => s!"You haven't added {module}"
  | .instantiation api message => s!"Not able to instantiate API {api} - {message}"
  | .storage error => "Storage error: " ++ error.message
  | .remote message => "Remote error: " ++ message
  | .internal message => "Internal error: " ++ message

/-- A short code for scripts. -/
def code : ConfigError → String
  | .schema _ _ => "SCHEMA_ERROR"
  | .userInput _ | .missingField _ | .invalidValue _ _ => "USER_INPUT"
  | .duplicateCollab _ => "DUPLICATE_COLLAB"
  | .crossApi _ _ => "CROSS_API"
  | .collabNotFound _ | .editTargetMissing _ => "COLLAB_NOT_FOUND"
  | .duplicateRegistration _ _ => "DUPLICATE_REGISTRATION"
  | .incompatibleSignalType _ _ => "INCOMPATIBLE_TYPE"
  | .unknownExtension _ => "UNKNOWN_EXTENSION"
  | .extensionAlreadyAdded _ => "EXTENSION_EXISTS"
  | .extensionNotAdded _ => "EXTENSION_NOT_FOUND"
  | .instantiation _ _ => "INSTANTIATION_FAILED"
  | .storage _ => "STORAGE_ERROR"
  | .remote _ => "REMOTE_ERROR"
  | .internal _ => "INTERNAL_ERROR"

def isUserError : ConfigError → Bool
  | .schema _ _ | .storage _ | .remote _ | .internal _ => false
  | _ => true

def exitCode (error : ConfigError) : Nat := if error.isUserError then 2 else 1

/-- A call to a store, the failure of which ends the command. -/
def onStore {m : Type → Type} [Monad m] {α : Type} (action : ExceptT StoreError m α) :
    ExceptT ConfigError m α :=
  action.adapt .storage

end ConfigError

end SignalExchange
