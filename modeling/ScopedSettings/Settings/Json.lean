/-
The JSON form of settings records and updates.

A record always has its six settings; its version may be left out and is then
zero, and its last change may be left out or null. Members of other names are
skipped. An update may leave anything out, and null counts as left out; but
members of other names are refused, for a misspelled setting would otherwise
be lost in silence.
-/
import ScopedSettings.Instant.Parser
import ScopedSettings.Instant.Printer
import ScopedSettings.Json.Record
import ScopedSettings.Json.Value
import ScopedSettings.Settings.Basic

namespace ScopedSettings

open Json

def readUInt32 : Reader UInt32 :=
  (readNatural UInt32.size "u32").map UInt32.ofNat

def readUInt64 : Reader UInt64 :=
  (readNatural UInt64.size "u64").map UInt64.ofNat

def readInstant : Reader Timestamp :=
  (readText "an RFC 3339 formatted date and time string").refine fun s =>
    match Instant.parse s with
    | .ok t => .ok t.toTimestamp
    | .error f => .error (.refused f.message)

namespace Settings

/-- What has been read of a record. -/
structure Draft where
  maxUploadMb : Option UInt32 := none
  enableDeduplication : Option Bool := none
  enableJira : Option Bool := none
  enableProductGrade : Option Bool := none
  enableUserProfileEditable : Option Bool := none
  timeZone : Option String := none
  version : Option UInt64 := none
  updatedAt : Option (Option Timestamp) := none

/-- The record of a draft; the first missing setting is reported. -/
def Draft.settings (d : Draft) : Except Misfit Settings := do
  let maxUploadMb ← required "max_upload_mb" d.maxUploadMb
  let enableDeduplication ← required "enable_deduplication" d.enableDeduplication
  let enableJira ← required "enable_jira" d.enableJira
  let enableProductGrade ← required "enable_product_grade" d.enableProductGrade
  let enableUserProfileEditable ←
    required "enable_user_profile_editable" d.enableUserProfileEditable
  let timeZone ← required "time_zone" d.timeZone
  return {
    maxUploadMb, enableDeduplication, enableJira, enableProductGrade
    enableUserProfileEditable, timeZone
    version := d.version.getD 0
    updatedAt := d.updatedAt.getD none }

def shape : RecordShape Draft Settings where
  title := "struct SystemSettings"
  lengthTitle := "struct SystemSettings with 8 elements"
  empty := {}
  strict := false
  fields := [
    { name := "max_upload_mb", isGiven := (·.maxUploadMb.isSome), optional := false
      read := fun d => readUInt32.map fun v => { d with maxUploadMb := some v } },
    { name := "enable_deduplication", isGiven := (·.enableDeduplication.isSome), optional := false
      read := fun d => readBool.map fun v => { d with enableDeduplication := some v } },
    { name := "enable_jira", isGiven := (·.enableJira.isSome), optional := false
      read := fun d => readBool.map fun v => { d with enableJira := some v } },
    { name := "enable_product_grade", isGiven := (·.enableProductGrade.isSome), optional := false
      read := fun d => readBool.map fun v => { d with enableProductGrade := some v } },
    { name := "enable_user_profile_editable", isGiven := (·.enableUserProfileEditable.isSome)
      optional := false
      read := fun d => readBool.map fun v => { d with enableUserProfileEditable := some v } },
    { name := "time_zone", isGiven := (·.timeZone.isSome), optional := false
      read := fun d => (readText "a string").map fun v => { d with timeZone := some v } },
    { name := "version", isGiven := (·.version.isSome), optional := true
      read := fun d => readUInt64.map fun v => { d with version := some v } },
    { name := "updated_at", isGiven := (·.updatedAt.isSome), optional := true
      read := fun d => readInstant.nullable.map fun v => { d with updatedAt := some v } }]
  record := Draft.settings

def reader : Reader Settings :=
  shape.read

def ofText (s : String) : Except SettingsError Settings :=
  match reader.whole (tokens s) with
  | .ok settings => .ok settings
  | .error p => .error (.serialization p.message)

/-- The record as a value to be written; the last change is left out if there was none. -/
def toValue (s : Settings) : Value :=
  .ofMembers <| [
    ("max_upload_mb", .natural s.maxUploadMb.toNat),
    ("enable_deduplication", .bool s.enableDeduplication),
    ("enable_jira", .bool s.enableJira),
    ("enable_product_grade", .bool s.enableProductGrade),
    ("enable_user_profile_editable", .bool s.enableUserProfileEditable),
    ("time_zone", .text s.timeZone),
    ("version", .natural s.version.toNat)] ++
    match s.updatedAt with
    | some t => [("updated_at", .text t.text)]
    | none => []

def compactText (s : Settings) : String :=
  s.toValue.compact

/-- The record with one member a line, as it stands in a record file. -/
def prettyText (s : Settings) : String :=
  s.toValue.pretty

end Settings

namespace Update

/-- What has been read of an update: for each setting, the value or null that was given. -/
structure Draft where
  maxUploadMb : Option (Option UInt32) := none
  enableDeduplication : Option (Option Bool) := none
  enableJira : Option (Option Bool) := none
  enableProductGrade : Option (Option Bool) := none
  enableUserProfileEditable : Option (Option Bool) := none
  timeZone : Option (Option String) := none

def Draft.update (d : Draft) : Update where
  maxUploadMb := d.maxUploadMb.join
  enableDeduplication := d.enableDeduplication.join
  enableJira := d.enableJira.join
  enableProductGrade := d.enableProductGrade.join
  enableUserProfileEditable := d.enableUserProfileEditable.join
  timeZone := d.timeZone.join

def shape : RecordShape Draft Update where
  title := "struct SettingsUpdate"
  lengthTitle := "struct SettingsUpdate with 6 elements"
  empty := {}
  strict := true
  fields := [
    { name := "max_upload_mb", isGiven := (·.maxUploadMb.isSome), optional := true
      read := fun d => readUInt32.nullable.map fun v => { d with maxUploadMb := some v } },
    { name := "enable_deduplication", isGiven := (·.enableDeduplication.isSome), optional := true
      read := fun d => readBool.nullable.map fun v => { d with enableDeduplication := some v } },
    { name := "enable_jira", isGiven := (·.enableJira.isSome), optional := true
      read := fun d => readBool.nullable.map fun v => { d with enableJira := some v } },
    { name := "enable_product_grade", isGiven := (·.enableProductGrade.isSome), optional := true
      read := fun d => readBool.nullable.map fun v => { d with enableProductGrade := some v } },
    { name := "enable_user_profile_editable", isGiven := (·.enableUserProfileEditable.isSome)
      optional := true
      read := fun d =>
        readBool.nullable.map fun v => { d with enableUserProfileEditable := some v } },
    { name := "time_zone", isGiven := (·.timeZone.isSome), optional := true
      read := fun d => (readText "a string").nullable.map fun v => { d with timeZone := some v } }]
  record d := .ok d.update

def reader : Reader Update :=
  shape.read

def ofText (s : String) : Except SettingsError Update :=
  match reader.whole (tokens s) with
  | .ok u => .ok u
  | .error p => .error (.serialization p.message)

/-- A member that is written only where its setting is set. -/
def member (name : String) (write : α → Value) : Option α → List (String × Value)
  | some a => [(name, write a)]
  | none => []

/-- The update as a value to be written: the settings it sets, no others. -/
def toValue (u : Update) : Value :=
  .ofMembers <|
    member "max_upload_mb" (fun n => .natural n.toNat) u.maxUploadMb ++
    member "enable_deduplication" .bool u.enableDeduplication ++
    member "enable_jira" .bool u.enableJira ++
    member "enable_product_grade" .bool u.enableProductGrade ++
    member "enable_user_profile_editable" .bool u.enableUserProfileEditable ++
    member "time_zone" .text u.timeZone

def compactText (u : Update) : String :=
  u.toValue.compact

end Update
end ScopedSettings
