/-
The settings as an operator sees and changes them from outside any unit of
work: every read goes to the store, and none of them makes a cache entry.
-/
import ScopedSettings.Config.Environment
import ScopedSettings.Service.Access
import ScopedSettings.Settings.Json
import ScopedSettings.Settings.Listing
import ScopedSettings.Store.RecordStore

namespace ScopedSettings.CommandLine

/-- A failed command: what was to be done, and what stood against it. -/
structure Failure where
  context : String
  cause : String
  deriving DecidableEq, Repr

namespace Failure

def of (context : String) (e : SettingsError) : Failure :=
  { context, cause := e.message }

def chain (f : Failure) : String :=
  f.context ++ ": " ++ f.cause

def indented (s : String) : String :=
  let gap := [' ', ' ', ' ', ' ']
  String.ofList (gap ++ s.toList.flatMap fun c => if c == '\n' then c :: gap else [c])

def report (f : Failure) : String :=
  "Error: " ++ f.context ++ "\n\nCaused by:\n" ++ indented f.cause ++ "\n"

end Failure

/-- The service that the environment asks for; a record file named on the command
line comes before the one that a variable names. -/
def startService (settingsFile : Option String) (vs : Variables) (tree : Files.Tree) :
    Except Failure (Service RecordStore) :=
  match Config.ofVariables (Config.variablesIn tree vs) with
  | .error e => .error (.of "Invalid settings configuration" e)
  | .ok config =>
    let config := match settingsFile with
      | some path => { config with medium := .file path }
      | none => config
    match Service.ofConfig config tree with
    | .error e => .error (.of "Failed to initialize settings runtime" e)
    | .ok service => .ok service

/-- Shows the settings, as JSON or as a listing. -/
def showSettings (json : Bool) : Course (Except Failure String) := do
  match ← Course.fetchOrDefault with
  | .error e => return .error (.of "Failed to read system settings" e)
  | .ok s => return .ok (if json then s.prettyText else s.listing)

/-- Changes the settings on behalf of a worker, and lists them as they are then. -/
def changeSettings (writer : WorkerId) (u : Update) (now : Instant) :
    Course (Except Failure String) := do
  match ← Course.write writer u now with
  | .error e => return .error (.of "Failed to update system settings" e)
  | .ok s => return .ok s.listing

end ScopedSettings.CommandLine
