/-
The configuration of a settings service: where the record lives, how long a
fetch may take, and how many write events are kept for slow observers.
-/
import ScopedSettings.Config.Duration
import ScopedSettings.Settings.Error

namespace ScopedSettings

/-- Where the record lives. -/
inductive Medium
  | memory
  | file (path : String)
  deriving DecidableEq, Repr

/-- The configuration of a service. -/
structure Config where
  medium : Medium := .memory
  fetchTimeout : Option Duration := some (.ofMillis 5000)
  eventCapacity : Nat := 64
  deriving DecidableEq, Repr

namespace Config

/-- The defaults, with the record in memory. -/
def default : Config := {}

/-- The defaults, with the record in a file. -/
def file (path : String) : Config :=
  { medium := .file path }

/-- Why a configuration is refused. -/
inductive Fault
  | noCapacity
  | zeroTimeout
  | emptyPath
  deriving DecidableEq, Repr

def Fault.message : Fault → String
  | .noCapacity => "event_capacity must be greater than 0"
  | .zeroTimeout => "fetch_timeout must be greater than 0; use None to disable it"
  | .emptyPath => "settings file path must not be empty"

/-- The first reason to refuse the configuration. -/
def fault? (c : Config) : Option Fault :=
  if c.eventCapacity = 0 then some .noCapacity
  else if c.fetchTimeout = some ⟨0⟩ then some .zeroTimeout
  else if c.medium = .file "" then some .emptyPath
  else none

/-- Accepts the configuration or gives the first reason not to. -/
def validate (c : Config) : Except SettingsError Unit :=
  match c.fault? with
  | some f => .error (.config f.message)
  | none => .ok ()

/-- The place of the record as diagnostics show it. -/
def inspectMedium : Medium → String
  | .memory => "Memory"
  | .file path => "File(" ++ Text.quoted path ++ ")"

/-- The timeout as diagnostics show it. -/
def inspectTimeout : Option Duration → String
  | some d => "Some(" ++ d.inspect ++ ")"
  | none => "None"

/-- The configuration as diagnostics show it. -/
def inspect (c : Config) : String :=
  "SettingsConfig \x7b backend: " ++ inspectMedium c.medium ++
    ", fetch_timeout: " ++ inspectTimeout c.fetchTimeout ++
    ", event_capacity: " ++ toString c.eventCapacity ++ " \x7d"

def toValue (c : Config) : Json.Value :=
  .ofMembers [
    ("backend", match c.medium with
      | .memory => .text "memory"
      | .file path => .ofMembers [("file", .text path)]),
    ("fetch_timeout", match c.fetchTimeout with
      | some d => d.toValue
      | none => .null),
    ("event_capacity", .natural c.eventCapacity)]

/-! ## Reading -/

open Json

def mediumVariants : List (Variant Medium) :=
  [{ name := "memory", bare := .ok .memory, content := (readNull "unit").map fun _ => .memory },
    { name := "file", bare := .error (.wrongType .unitVariant "newtype variant")
      content := (readText "path string").map .file }]

/-- What has been read of a configuration. -/
structure Draft where
  medium : Option Medium := none
  fetchTimeout : Option (Option Duration) := none
  eventCapacity : Option Nat := none

/-- The configuration of a draft; a timeout that is left out is none. -/
def Draft.config (d : Draft) : Except Misfit Config := do
  let medium ← required "backend" d.medium
  let eventCapacity ← required "event_capacity" d.eventCapacity
  return { medium, fetchTimeout := d.fetchTimeout.join, eventCapacity }

def shape : RecordShape Draft Config where
  title := "struct SettingsConfig"
  lengthTitle := "struct SettingsConfig with 3 elements"
  empty := {}
  strict := false
  fields := [
    { name := "backend", isGiven := (·.medium.isSome), optional := false
      read := fun d => Reader.map (fun v => { d with medium := some v })
        (readVariant mediumVariants) },
    { name := "fetch_timeout", isGiven := (·.fetchTimeout.isSome), optional := false
      read := fun d => Duration.reader.nullable.map fun v => { d with fetchTimeout := some v } },
    { name := "event_capacity", isGiven := (·.eventCapacity.isSome), optional := false
      read := fun d => (readNatural UInt64.size "usize").map fun v =>
        { d with eventCapacity := some v } }]
  record := Draft.config

def reader : Reader Config :=
  shape.read

def ofText (s : String) : Except SettingsError Config :=
  match reader.whole (tokens s) with
  | .ok c => .ok c
  | .error p => .error (.serialization p.message)

end Config
end ScopedSettings
