/-
The configuration as the environment gives it.
-/
import ScopedSettings.Config.Basic
import ScopedSettings.Config.EnvFile
import ScopedSettings.Files.Tree

namespace ScopedSettings.Config

def fileVariable : String := "WARDEN_SETTINGS_FILE"

/-- The variable that bounds a fetch, in milliseconds; zero removes the bound. -/
def timeoutVariable : String := "WARDEN_FETCH_TIMEOUT_MS"

/-- The variable that says how many write events are kept. -/
def capacityVariable : String := "WARDEN_EVENT_CAPACITY"

/-- A variable's value as a number, blanks around it allowed. -/
def integer (name raw : String) : Except SettingsError Nat :=
  match Variables.natural? UInt64.size (Text.trimmed raw) with
  | some n => .ok n
  | none => .error (.config (name ++ " must be an integer, got " ++ Text.quoted raw))

/-- The place of the record: the named file, unless the name is blank. -/
def mediumOf : Option String → Medium
  | some path => if Text.isBlankText path then default.medium else .file path
  | none => default.medium

def timeoutOf : Option String → Except SettingsError (Option Duration)
  | none => .ok default.fetchTimeout
  | some raw =>
    (integer timeoutVariable raw).map fun ms => if ms = 0 then none else some (.ofMillis ms)

def capacityOf : Option String → Except SettingsError Nat
  | none => .ok default.eventCapacity
  | some raw => integer capacityVariable raw

/-- The configuration of a set of variables; what is not set keeps its default,
and the first fault is reported, the timeout's before the capacity's. -/
def ofVariables (vs : Variables) : Except SettingsError Config := do
  let medium := mediumOf (vs.get? fileVariable)
  let fetchTimeout ← timeoutOf (vs.get? timeoutVariable)
  let eventCapacity ← capacityOf (vs.get? capacityVariable)
  let config : Config := { medium, fetchTimeout, eventCapacity }
  config.validate
  return config

/-- The name of the file that sets variables not set otherwise. -/
def envFile : String := ".env"

/-- The variables that hold in a workspace: those given, then those of its file. -/
def variablesIn (tree : Files.Tree) (vs : Variables) : Variables :=
  match tree.readBytes envFile with
  | .ok bytes => EnvFile.load [] vs (EnvFile.lines bytes)
  | .error _ => vs

end ScopedSettings.Config
