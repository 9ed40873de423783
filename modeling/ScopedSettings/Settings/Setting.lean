/-
The settings one by one: their names, their values, and the documents that spell them.

What can be said of all six in the same words is said of a `Setting`: what a record or an
update has for it, what a change sets it to, which JSON it is spelled by.
-/
import ScopedSettings.Instant.Parser
import ScopedSettings.Json.Document
import ScopedSettings.Settings.Basic

namespace ScopedSettings

open Json

/-- The settings an operator can change. -/
inductive Setting
  | maxUploadMb
  | enableDeduplication
  | enableJira
  | enableProductGrade
  | enableUserProfileEditable
  | timeZone
  deriving DecidableEq

namespace Setting

/-- The settings in the order of declaration. -/
def all : List Setting :=
  [maxUploadMb, enableDeduplication, enableJira, enableProductGrade, enableUserProfileEditable,
    timeZone]

def name : Setting → String
  | maxUploadMb => "max_upload_mb"
  | enableDeduplication => "enable_deduplication"
  | enableJira => "enable_jira"
  | enableProductGrade => "enable_product_grade"
  | enableUserProfileEditable => "enable_user_profile_editable"
  | timeZone => "time_zone"

/-- What a setting is set to. -/
abbrev Content : Setting → Type
  | maxUploadMb => UInt32
  | enableDeduplication | enableJira | enableProductGrade | enableUserProfileEditable => Bool
  | timeZone => String

/-- Does a document spell this value of a setting? -/
def Spells : (i : Setting) → Document → i.Content → Prop
  | maxUploadMb, d, n => d = .number (.ofNat n.toNat)
  | enableDeduplication, d, b | enableJira, d, b | enableProductGrade, d, b
  | enableUserProfileEditable, d, b => d = .bool b
  | timeZone, d, z => d.SpellsText z

/-- Is a document of the setting's type and range? A number is, if it is spelled without sign,
fraction and exponent and fits thirty-two bits. -/
def Accepts : Setting → Document → Prop
  | maxUploadMb, d => ∃ f : Figure, d = .number f ∧ f.isNegative = false ∧ f.fraction = none ∧
    f.exponent = none ∧ f.whole ≤ 4294967295
  | enableDeduplication, d | enableJira, d | enableProductGrade, d
  | enableUserProfileEditable, d => ∃ b, d = .bool b
  | timeZone, d => ∃ z, d.SpellsText z

end Setting

namespace Settings

/-- The value of a setting in a record. -/
def value (s : Settings) : (i : Setting) → i.Content
  | .maxUploadMb => s.maxUploadMb
  | .enableDeduplication => s.enableDeduplication
  | .enableJira => s.enableJira
  | .enableProductGrade => s.enableProductGrade
  | .enableUserProfileEditable => s.enableUserProfileEditable
  | .timeZone => s.timeZone

/-- The names of a record's members in the order of declaration. -/
def memberNames : List String :=
  Setting.all.map Setting.name ++ ["version", "updated_at"]

/-- Does a document spell this point in time, as an instant? -/
def SpellsInstant (d : Document) (t : Timestamp) : Prop :=
  ∃ z, d.SpellsText z ∧ (Instant.parse z).map Instant.toTimestamp = .ok t

end Settings

namespace Update

/-- What an update sets a setting to, if it does. -/
def value (u : Update) : (i : Setting) → Option i.Content
  | .maxUploadMb => u.maxUploadMb
  | .enableDeduplication => u.enableDeduplication
  | .enableJira => u.enableJira
  | .enableProductGrade => u.enableProductGrade
  | .enableUserProfileEditable => u.enableUserProfileEditable
  | .timeZone => u.timeZone

/-- What a change sets a setting to, if it is one of that setting. -/
def Change.argument? : Change → (i : Setting) → Option i.Content
  | .maxUploadMb n, .maxUploadMb => some n
  | .enableDeduplication b, .enableDeduplication => some b
  | .enableJira b, .enableJira => some b
  | .enableProductGrade b, .enableProductGrade => some b
  | .enableUserProfileEditable b, .enableUserProfileEditable => some b
  | .timeZone z, .timeZone => some z
  | _, _ => none

end Update
end ScopedSettings
