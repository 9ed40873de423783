/-
A listing determines the record it lists, up to the part of a second of its last change,
where a leap second within a minute is listed as the second that follows.

Only the row of the time zone can hold line breaks, and with them rows that look like
others. But five rows stand before it and two behind it, each of them one line, so a
listing is cut from both ends, and what is left is that row, whatever it holds
(`Text.joined_inj`). Each row then determines its value: numbers and switches have one
text each, and the line of the last change is read back as an instant, to the second
(`parse_lastChange`).
-/
import ScopedSettings.Proofs.Settings.RoundTrip
import ScopedSettings.Proofs.Text.Lines
import ScopedSettings.Settings.Listing

namespace ScopedSettings

open Text

/-! ## Rows of one line -/

theorem newline_not_mem_padded (width n : Nat) : '\n' ∉ padded width n :=
  oneLine_of_isDigit fun _ => isDigit_of_mem_padded

theorem newline_not_mem_yearChars (year : Int) : '\n' ∉ yearChars year := by
  unfold yearChars
  split
  · exact newline_not_mem_padded _ _
  · split <;> simp [newline_not_mem_padded]

theorem Timestamp.oneLine_listingText (t : Timestamp) : OneLine t.listingText.toList := by
  simp [OneLine, listingText, dateChars, timeChars, newline_not_mem_padded,
    newline_not_mem_yearChars]

namespace Settings

theorem oneLine_lastChange (s : Settings) : OneLine s.lastChange.toList := by
  unfold lastChange
  cases s.updatedAt with
  | some t => exact t.oneLine_listingText
  | none => decide

theorem oneLine_row {name value : String} (hname : OneLine name.toList)
    (hvalue : OneLine value.toList) : OneLine (row name value).toList := by
  simp_all [OneLine, row]

/-- The rows before that of the time zone. -/
def frontRows (s : Settings) : List String :=
  [row "max_upload_mb" (toString s.maxUploadMb.toNat),
    row "enable_deduplication" (toString s.enableDeduplication),
    row "enable_jira" (toString s.enableJira),
    row "enable_product_grade" (toString s.enableProductGrade),
    row "enable_user_profile_editable" (toString s.enableUserProfileEditable)]

/-- The rows behind that of the time zone. -/
def backRows (s : Settings) : List String :=
  [row "version" (toString s.version.toNat), row "updated_at" s.lastChange]

theorem rows_eq (s : Settings) :
    s.rows = s.frontRows ++ row "time_zone" s.timeZone :: s.backRows := rfl

theorem oneLine_frontRows (s : Settings) : ∀ l ∈ s.frontRows.map String.toList, OneLine l := by
  simp only [frontRows, List.map_cons, List.map_nil, List.forall_mem_cons, List.not_mem_nil,
    false_implies, implies_true, and_true]
  exact ⟨oneLine_row (by decide) (oneLine_natural _), oneLine_row (by decide) (oneLine_truth _),
    oneLine_row (by decide) (oneLine_truth _), oneLine_row (by decide) (oneLine_truth _),
    oneLine_row (by decide) (oneLine_truth _)⟩

theorem oneLine_backRows (s : Settings) : ∀ l ∈ s.backRows.map String.toList, OneLine l := by
  simp only [backRows, List.map_cons, List.map_nil, List.forall_mem_cons, List.not_mem_nil,
    false_implies, implies_true, and_true]
  exact ⟨oneLine_row (by decide) (oneLine_natural _),
    oneLine_row (by decide) s.oneLine_lastChange⟩

/-! ## What a row shows -/

theorem row_inj {name value value' : String} (h : row name value = row name value') :
    value = value' := by
  simpa [row] using h

/-- The last change is read back from its line, to the second. -/
theorem parse_lastChange (s : Settings) :
    ((Instant.parse s.lastChange).map Instant.toTimestamp).toOption =
      s.spelled.updatedAt.map Timestamp.wholeSecond := by
  unfold lastChange spelled
  cases s.updatedAt with
  | some t => simp [Instant.parse_listingText, Except.map, Except.toOption]
  | none => rfl

/-- Listings that are the same text have the same rows. -/
theorem rows_inj {s t : Settings} (h : s.listing = t.listing) :
    s.frontRows = t.frontRows ∧ s.timeZone = t.timeZone ∧ s.backRows = t.backRows := by
  have hjoined : ∀ s : Settings, s.listing.toList =
      joined (s.frontRows.map String.toList ++
        (row "time_zone" s.timeZone).toList :: s.backRows.map String.toList) := by
    intro s
    simp [listing, rows_eq]
  have hlists := congrArg String.toList h
  rw [hjoined, hjoined] at hlists
  obtain ⟨hfront, hzone, hback⟩ :=
    joined_inj s.oneLine_frontRows t.oneLine_frontRows s.oneLine_backRows t.oneLine_backRows
      (by simp [frontRows]) (by simp [backRows]) hlists
  have hinj : ∀ a b : String, a.toList = b.toList → a = b := fun _ _ => String.toList_inj.mp
  exact ⟨(List.map_inj_right hinj).mp hfront, row_inj (hinj _ _ hzone),
    (List.map_inj_right hinj).mp hback⟩

/-- The record with its last change to the second. -/
def toSecond (s : Settings) : Settings :=
  { s with updatedAt := s.updatedAt.map Timestamp.wholeSecond }

theorem listing_toSecond (s : Settings) : s.spelled.toSecond.listing = s.listing := by
  have hchange : s.spelled.toSecond.lastChange = s.lastChange := by
    unfold lastChange toSecond spelled
    cases s.updatedAt with
    | some t => exact t.listingText_wholeSecond
    | none => rfl
  simp only [listing, rows, hchange]
  rfl

theorem toSecond_of_listing {s t : Settings} (h : s.listing = t.listing) :
    s.spelled.toSecond = t.spelled.toSecond := by
  obtain ⟨hfront, hzone, hback⟩ := rows_inj h
  simp only [frontRows, List.cons.injEq, and_true] at hfront
  obtain ⟨hupload, hdeduplication, hjira, hgrade, hprofile⟩ := hfront
  simp only [backRows, List.cons.injEq, and_true] at hback
  obtain ⟨hversion, hchange⟩ := hback
  have hupdated := congrArg
    (fun line => ((Instant.parse line).map Instant.toTimestamp).toOption) (row_inj hchange)
  simp only [parse_lastChange] at hupdated
  simp only [toSecond, mk.injEq]
  exact ⟨UInt32.toNat_inj.mp (toString_inj (row_inj hupload)),
    toString_truth_inj (row_inj hdeduplication), toString_truth_inj (row_inj hjira),
    toString_truth_inj (row_inj hgrade), toString_truth_inj (row_inj hprofile), hzone,
    UInt64.toNat_inj.mp (toString_inj (row_inj hversion)), hupdated⟩

/-- The listing of a record determines the record that its texts spell, to the second of its
last change and whatever the time zones hold; and nothing beyond that second is listed. The
record that is spelled is the record itself, exactly if its last change is an instant. -/
theorem listing_eq_iff :
    (∀ s t : Settings, s.listing = t.listing ↔ s.spelled.toSecond = t.spelled.toSecond) ∧
      ∀ s : Settings, s.spelled = s ↔ s.IsRegular := by
  refine ⟨fun s t => ⟨toSecond_of_listing, fun h => ?_⟩, fun s => spelled_eq_iff⟩
  rw [← s.listing_toSecond, h, t.listing_toSecond]

/-- Records that were changed in a leap second within a minute, and in the second that follows
it, are listed alike. -/
theorem listing_within_minute :
    let s : Settings := { updatedAt := some .withinMinute }
    let t : Settings := { updatedAt := some Timestamp.withinMinute.spelled.toTimestamp }
    s.listing = t.listing ∧ s.toSecond ≠ t.toSecond := by
  intro s t
  have hspelled : t.spelled = s.spelled := by
    simp [s, t, spelled]
  refine ⟨?_, ?_⟩
  · rw [← s.listing_toSecond, ← t.listing_toSecond, hspelled]
  · intro h
    have hsecond : (86164 : Nat) = 86165 := congrArg (fun s : Settings =>
      (s.updatedAt.map Timestamp.second).getD 0) h
    exact absurd hsecond (by decide)

end Settings
end ScopedSettings
