/-
The errors of the settings service. Two of them, the store being unavailable
and the record missing, mean that the store is not ready: readers then go on
with the default settings, and callers are asked to try again.
-/
import ScopedSettings.Text.Quoted

namespace ScopedSettings

/-- What can go wrong with the settings. -/
inductive SettingsError
  | storeUnavailable (reason : String)
  | recordNotFound
  | validation (reason : String)
  | serialization (reason : String)
  | config (reason : String)
  deriving DecidableEq, Repr

namespace SettingsError

def message : SettingsError → String
  | .storeUnavailable reason => "Settings store unavailable: " ++ reason
  | .recordNotFound => "System settings record not found"
  | .validation reason => "Validation error: " ++ reason
  | .serialization reason => "Serialization error: " ++ reason
  | .config reason => "Configuration error: " ++ reason

def kindName : SettingsError → String
  | .storeUnavailable _ => "StoreUnavailable"
  | .recordNotFound => "RecordNotFound"
  | .validation _ => "ValidationError"
  | .serialization _ => "SerializationError"
  | .config _ => "ConfigError"

/-- The reason an error was given, if its kind has one. -/
def reason? : SettingsError → Option String
  | .storeUnavailable reason | .validation reason | .serialization reason | .config reason =>
    some reason
  | .recordNotFound => none

def ofKindName? (name reason : String) : Option SettingsError :=
  [.storeUnavailable reason, .recordNotFound, .validation reason, .serialization reason,
    .config reason].find? fun e => e.kindName == name

/-- The error as diagnostics show it. -/
def inspect (e : SettingsError) : String :=
  match e.reason? with
  | some reason => e.kindName ++ "(" ++ Text.quoted reason ++ ")"
  | none => e.kindName

/-- Is the store not ready, so that defaults may stand in for its record? -/
def isNotReady : SettingsError → Bool
  | .storeUnavailable _ | .recordNotFound => true
  | .validation _ | .serialization _ | .config _ => false

end SettingsError
end ScopedSettings
