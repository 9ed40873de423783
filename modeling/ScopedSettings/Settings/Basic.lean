/-
The settings record and partial updates of it.

An update carries a new value for some of the six settings an operator can
change. Applying it takes each of them from the update where it is set and
from the record where it is not, counts the version up and stamps the record;
an update is checked (`Update.fault?`) before a store applies it.
-/
import ScopedSettings.Instant.Basic
import ScopedSettings.Settings.Error
import ScopedSettings.Text.Blank

namespace ScopedSettings

/-- The system settings, with the version of the record and its last change. -/
structure Settings where
  maxUploadMb : UInt32 := 100
  enableDeduplication : Bool := true
  enableJira : Bool := false
  enableProductGrade : Bool := true
  enableUserProfileEditable : Bool := true
  timeZone : String := "UTC"
  version : UInt64 := 0
  updatedAt : Option Timestamp := none
  deriving DecidableEq

namespace Settings

/-- The settings that hold while no record has been written. -/
def default : Settings := {}

instance : Inhabited Settings := ⟨default⟩

/-- Has no write made this record? -/
def isDefaultInstance (s : Settings) : Bool :=
  s.version == 0 && s.updatedAt.isNone

def leastUploadMb : UInt32 := 1

/-- The greatest upload limit in megabytes. -/
def greatestUploadMb : UInt32 := 10240

/-- Is this an upload limit the service accepts? -/
def AcceptsUploadMb (n : UInt32) : Prop :=
  leastUploadMb ≤ n ∧ n ≤ greatestUploadMb

instance (n : UInt32) : Decidable (AcceptsUploadMb n) :=
  inferInstanceAs (Decidable (_ ∧ _))

/-- A valid record: an acceptable limit, and a time zone that is not empty and
has no blanks around it. -/
structure IsValid (s : Settings) : Prop where
  uploadMb : AcceptsUploadMb s.maxUploadMb
  timeZone_nonempty : s.timeZone ≠ ""
  timeZone_trimmed : Text.trimmed s.timeZone = s.timeZone

end Settings

/-- New values for some of the settings. -/
structure Update where
  maxUploadMb : Option UInt32 := none
  enableDeduplication : Option Bool := none
  enableJira : Option Bool := none
  enableProductGrade : Option Bool := none
  enableUserProfileEditable : Option Bool := none
  timeZone : Option String := none
  deriving DecidableEq

namespace Update

def empty : Update := {}

/-- Does the update set nothing? -/
def isEmpty (u : Update) : Bool :=
  u == empty

/-- Why an update is refused. -/
inductive Fault
  | noChanges
  | uploadMb (n : UInt32)
  | blankTimeZone
  deriving DecidableEq, Repr

def Fault.message : Fault → String
  | .noChanges => "update contains no changes"
  | .uploadMb n =>
    "max_upload_mb must be between " ++ toString Settings.leastUploadMb.toNat ++ " and " ++
      toString Settings.greatestUploadMb.toNat ++ ", got " ++ toString n.toNat
  | .blankTimeZone => "time_zone must not be empty"

/-- The first reason to refuse the update. -/
def fault? (u : Update) : Option Fault :=
  if u.isEmpty then some .noChanges
  else
    match u.maxUploadMb with
    | some n => if Settings.AcceptsUploadMb n then timeZoneFault? u else some (.uploadMb n)
    | none => timeZoneFault? u
where
  /-- A time zone of blanks only is refused. -/
  timeZoneFault? (u : Update) : Option Fault :=
    match u.timeZone with
    | some z => if Text.isBlankText z then some .blankTimeZone else none
    | none => none

/-- Accepts the update or gives the first reason not to. -/
def validate (u : Update) : Except SettingsError Unit :=
  match u.fault? with
  | some f => .error (.validation f.message)
  | none => .ok ()

/-- The record after the update, changed at the given instant. The time zone
loses the blanks around it. -/
def apply (u : Update) (base : Settings) (now : Instant) : Settings where
  maxUploadMb := u.maxUploadMb.getD base.maxUploadMb
  enableDeduplication := u.enableDeduplication.getD base.enableDeduplication
  enableJira := u.enableJira.getD base.enableJira
  enableProductGrade := u.enableProductGrade.getD base.enableProductGrade
  enableUserProfileEditable := u.enableUserProfileEditable.getD base.enableUserProfileEditable
  timeZone := (u.timeZone.map Text.trimmed).getD base.timeZone
  version := base.version + 1
  updatedAt := some now.toTimestamp

/-- One setting given a new value. -/
inductive Change
  | maxUploadMb (n : UInt32)
  | enableDeduplication (b : Bool)
  | enableJira (b : Bool)
  | enableProductGrade (b : Bool)
  | enableUserProfileEditable (b : Bool)
  | timeZone (z : String)
  deriving DecidableEq

/-- The update with one more change; a later one replaces an earlier one of the same setting. -/
def set (u : Update) : Change → Update
  | .maxUploadMb n => { u with maxUploadMb := some n }
  | .enableDeduplication b => { u with enableDeduplication := some b }
  | .enableJira b => { u with enableJira := some b }
  | .enableProductGrade b => { u with enableProductGrade := some b }
  | .enableUserProfileEditable b => { u with enableUserProfileEditable := some b }
  | .timeZone z => { u with timeZone := some z }

/-- The update of a list of changes, in order. -/
def ofChanges (changes : List Change) : Update :=
  changes.foldl set empty

end Update
end ScopedSettings
