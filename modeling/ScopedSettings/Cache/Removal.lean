/-
Why a worker's entry leaves the scope cache.
-/
import ScopedSettings.Json.Record
import ScopedSettings.Json.Value
import ScopedSettings.Settings.Error

namespace ScopedSettings

/-- A reason to remove an entry: the end of its unit of work, or a write. -/
inductive Removal
  | unitCompleted
  | unitFailed
  | unitAbandoned
  | settingsWritten (version : Nat)
  deriving DecidableEq, Repr

namespace Removal

/-- The reason as messages show it. -/
def text : Removal → String
  | .unitCompleted => "unit of work completed"
  | .unitFailed => "unit of work failed"
  | .unitAbandoned => "unit of work abandoned"
  | .settingsWritten version => "settings written (v" ++ toString version ++ ")"

def name : Removal → String
  | .unitCompleted => "UnitCompleted"
  | .unitFailed => "UnitFailed"
  | .unitAbandoned => "UnitAbandoned"
  | .settingsWritten _ => "SettingsWritten"

/-- The reason as diagnostics show it. -/
def inspect : Removal → String
  | .settingsWritten version => "SettingsWritten \x7b version: " ++ toString version ++ " \x7d"
  | r => r.name

def toValue : Removal → Json.Value
  | .settingsWritten version =>
    .ofMembers [("SettingsWritten", .ofMembers [("version", .natural version)])]
  | r => .text r.name

open Json

/-- The members of a write's content; the draft is its version. -/
def writtenShape : RecordShape (Option Nat) Removal where
  title := "struct variant InvalidationReason::SettingsWritten"
  lengthTitle := "struct variant InvalidationReason::SettingsWritten with 1 element"
  empty := none
  strict := false
  fields := [
    { name := "version", isGiven := Option.isSome, optional := false
      read := fun _ => (readNatural UInt64.size "u64").map some }]
  record version := (required "version" version).map settingsWritten

def plainVariant (r : Removal) : Variant Removal where
  name := r.name
  bare := .ok r
  content := (readNull "unit").map fun _ => r

def variants : List (Variant Removal) :=
  [plainVariant .unitCompleted, plainVariant .unitFailed, plainVariant .unitAbandoned,
    { name := "SettingsWritten"
      bare := .error (.wrongType .unitVariant "struct variant")
      content := writtenShape.read }]

def reader : Reader Removal :=
  readVariant variants

def ofText (s : String) : Except SettingsError Removal :=
  match reader.whole (tokens s) with
  | .ok r => .ok r
  | .error p => .error (.serialization p.message)

end Removal
end ScopedSettings
