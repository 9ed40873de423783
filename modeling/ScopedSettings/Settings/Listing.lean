/-
The plain listing of a record: one row per setting, its name padded to a
column of thirty characters.
-/
import ScopedSettings.Instant.Printer
import ScopedSettings.Settings.Basic

namespace ScopedSettings.Settings

def nameWidth : Nat := 30

def row (name value : String) : String :=
  name ++ String.ofList (List.replicate (nameWidth - name.length) ' ') ++ " " ++ value

def lastChange (s : Settings) : String :=
  match s.updatedAt with
  | some t => t.listingText
  | none => "never (defaults)"

def rows (s : Settings) : List String :=
  [row "max_upload_mb" (toString s.maxUploadMb.toNat),
    row "enable_deduplication" (toString s.enableDeduplication),
    row "enable_jira" (toString s.enableJira),
    row "enable_product_grade" (toString s.enableProductGrade),
    row "enable_user_profile_editable" (toString s.enableUserProfileEditable),
    row "time_zone" s.timeZone,
    row "version" (toString s.version.toNat),
    row "updated_at" s.lastChange]

def listing (s : Settings) : String :=
  String.intercalate "\n" s.rows

end ScopedSettings.Settings
