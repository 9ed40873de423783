/-
What is read back of a record that has been written, laid out or compact.

The members of a written record fill a draft, field by field in the order of
declaration (`Settings.fills_members`); the last change is filled in only where
there was one, for it is written only then, and as the instant that its text spells.
So a record is read back as it was, whatever its time zone and its version, exactly if
its last change is an instant (`Settings.IsRegular`), which it is in every record that
has been read. To read a text and to write what has been read makes a canonical one of
it (`Settings.rewritten`): texts are rewritten alike if they are read alike, and only
then.
-/
import ScopedSettings.Proofs.Instant.RoundTrip
import ScopedSettings.Proofs.Json.Records
import ScopedSettings.Settings.Json

namespace ScopedSettings

open Json

/-! ## The values of fields -/

theorem readUInt32_reads (n : UInt32) : readUInt32.Reads (.natural n.toNat) n := by
  have hbound : UInt32.size ≤ UInt64.size := by decide
  have h := (readNatural_reads hbound n.toNat_lt "u32").map UInt32.ofNat
  rwa [UInt32.ofNat_toNat] at h

theorem readUInt64_reads (n : UInt64) : readUInt64.Reads (.natural n.toNat) n := by
  have h := (readNatural_reads (Nat.le_refl UInt64.size) n.toNat_lt "u64").map UInt64.ofNat
  rwa [UInt64.ofNat_toNat] at h

theorem readInstant_reads (t : Timestamp) : readInstant.Reads (.text t.text) t.spelled := by
  refine (readText_reads _ _).refine ?_
  rw [Instant.parse_text]

/-- What is read of a text is an instant. -/
theorem readInstant_yields : readInstant.Yields Timestamp.IsRegular := by
  refine (readText _).yields_true.refine fun z t _ ht => ?_
  split at ht
  · rename_i i _
    cases ht
    exact i.isRegular
  · cases ht

theorem readInstant_nullable_reads (t : Timestamp) :
    readInstant.nullable.Reads (.text t.text) (some t.spelled.toTimestamp) := by
  refine (readInstant_reads t).nullable ?_ ?_
  · simp [Value.tokens]
  · simp [Value.tokens]

/-! ## Records -/

namespace Settings

/-- Is the last change, if there was one, an instant? -/
def IsRegular (s : Settings) : Prop :=
  ∀ t, s.updatedAt = some t → t.IsRegular

theorem isRegular_default : default.IsRegular := by
  rintro t ⟨⟩

/-- What an update has been applied to has been changed at an instant. -/
theorem isRegular_apply (u : Update) (base : Settings) (now : Instant) :
    (u.apply base now).IsRegular := by
  rintro t ⟨⟩
  exact now.isRegular

/-- The record that is spelled by a record's texts. -/
def spelled (s : Settings) : Settings :=
  { s with updatedAt := s.updatedAt.map fun t => t.spelled.toTimestamp }

theorem spelled_eq_iff {s : Settings} : s.spelled = s ↔ s.IsRegular := by
  obtain ⟨_, _, _, _, _, _, _, updatedAt⟩ := s
  cases updatedAt with
  | none => simp [spelled, IsRegular]
  | some t => simp [spelled, IsRegular, Timestamp.spelled_eq_iff]

theorem isRegular_spelled (s : Settings) : s.spelled.IsRegular := by
  intro t ht
  obtain ⟨t', -, rfl⟩ := Option.map_eq_some_iff.mp ht
  exact t'.spelled.isRegular

/-- The draft that a written record fills. -/
def draftOf (s : Settings) : Draft where
  maxUploadMb := some s.maxUploadMb
  enableDeduplication := some s.enableDeduplication
  enableJira := some s.enableJira
  enableProductGrade := some s.enableProductGrade
  enableUserProfileEditable := some s.enableUserProfileEditable
  timeZone := some s.timeZone
  version := some s.version
  updatedAt := s.updatedAt.map fun t => some t.spelled.toTimestamp

theorem draftOf_settings (s : Settings) : s.draftOf.settings = .ok s.spelled := by
  obtain ⟨_, _, _, _, _, _, _, updatedAt⟩ := s
  cases updatedAt with
  | none => rfl
  | some t => rfl

/-- The last change fills what the other members leave open. -/
theorem fills_last (s : Settings) :
    shape.Fills { s.draftOf with updatedAt := none }
      (match s.updatedAt with
        | some t => [("updated_at", .text t.text)]
        | none => []) s.draftOf := by
  unfold draftOf
  cases s.updatedAt with
  | none => exact .nil
  | some t => exact .cons rfl rfl ((readInstant_nullable_reads t).map _) .nil

/-- The members of a written record fill its draft. -/
theorem fills_members (s : Settings) :
    ∃ members, s.toValue = .ofMembers members ∧ shape.Fills shape.empty members s.draftOf := by
  refine ⟨_, rfl, ?_⟩
  refine .cons rfl rfl ((readUInt32_reads s.maxUploadMb).map _) ?_
  refine .cons rfl rfl ((readBool_reads s.enableDeduplication).map _) ?_
  refine .cons rfl rfl ((readBool_reads s.enableJira).map _) ?_
  refine .cons rfl rfl ((readBool_reads s.enableProductGrade).map _) ?_
  refine .cons rfl rfl ((readBool_reads s.enableUserProfileEditable).map _) ?_
  refine .cons rfl rfl ((readText_reads "a string" s.timeZone).map _) ?_
  refine .cons rfl rfl ((readUInt64_reads s.version).map _) ?_
  exact s.fills_last

theorem reader_reads (s : Settings) : reader.Reads s.toValue s.spelled := by
  obtain ⟨members, hvalue, hfills⟩ := s.fills_members
  rw [hvalue]
  exact hfills.read s.draftOf_settings

/-- The record that is spelled by it is read from the text in a record file. -/
theorem ofText_prettyText (s : Settings) : ofText s.prettyText = .ok s.spelled := by
  unfold ofText prettyText
  rw [tokens_pretty, s.reader_reads.whole]

theorem ofText_compactText (s : Settings) : ofText s.compactText = .ok s.spelled := by
  unfold ofText compactText
  rw [tokens_compact, s.reader_reads.whole]

/-- No field takes from a draft that its last change is an instant. -/
theorem yields_isRegular : reader.Yields IsRegular := by
  refine RecordShape.yields (P := fun d => ∀ t, d.updatedAt = some (some t) → t.IsRegular) ?_ ?_ ?_
  · intro d s hd hs t ht
    have hdraft : d.updatedAt.getD none = s.updatedAt := by
      unfold shape Draft.settings at hs
      obtain ⟨_ | _, _ | _, _ | _, _ | _, _ | _, _ | _, _, _⟩ := d <;> cases hs
      rfl
    rw [ht] at hdraft
    refine hd t ?_
    cases hupdated : d.updatedAt with
    | none =>
      rw [hupdated] at hdraft
      cases hdraft
    | some t? =>
      rw [hupdated] at hdraft
      exact congrArg some hdraft
  · simp only [shape, List.forall_mem_cons, List.not_mem_nil, false_implies, implies_true, and_true]
    refine ⟨?_, ?_, ?_, ?_, ?_, ?_, ?_, ?_⟩
    · exact fun d hd => (Reader.yields_true _).map fun _ _ => hd
    · exact fun d hd => (Reader.yields_true _).map fun _ _ => hd
    · exact fun d hd => (Reader.yields_true _).map fun _ _ => hd
    · exact fun d hd => (Reader.yields_true _).map fun _ _ => hd
    · exact fun d hd => (Reader.yields_true _).map fun _ _ => hd
    · exact fun d hd => (Reader.yields_true _).map fun _ _ => hd
    · exact fun d hd => (Reader.yields_true _).map fun _ _ => hd
    · intro d hd
      refine readInstant_yields.nullable.map fun t? ht t h => ?_
      cases h
      exact ht t rfl
  · rintro t ⟨⟩

theorem isRegular_of_ofText {text : String} {s : Settings} (h : ofText text = .ok s) :
    s.IsRegular := by
  unfold ofText Reader.whole at h
  split at h
  · rename_i settings hwhole
    cases h
    split at hwhole
    · cases hwhole
    · rename_i hread
      cases hwhole
      exact yields_isRegular _ _ _ hread
    · cases hwhole
  · cases h

/-! ## Canonical texts -/

/-- The ways in which records are written. -/
inductive Layout
  | compact
  | pretty

def written (s : Settings) : Layout → String
  | .compact => s.compactText
  | .pretty => s.prettyText

theorem ofText_written (s : Settings) (l : Layout) : ofText (s.written l) = .ok s.spelled := by
  cases l with
  | compact => exact s.ofText_compactText
  | pretty => exact s.ofText_prettyText

/-- The record that a text is read as, written again; or why the text is not read. -/
def rewritten (l : Layout) (text : String) : Except SettingsError String := do
  return (← ofText text).written l

theorem rewritten_of_error {text : String} {e : SettingsError} (h : ofText text = .error e)
    (l : Layout) : rewritten l text = .error e := by
  unfold rewritten
  rw [h]
  rfl

theorem rewritten_of_ok {text : String} {s : Settings} (h : ofText text = .ok s) (l : Layout) :
    rewritten l text = .ok (s.written l) := by
  unfold rewritten
  rw [h]
  rfl

/-- What has been rewritten is read as the text was. -/
theorem rewritten_bind_ofText (l : Layout) (text : String) :
    (rewritten l text >>= ofText) = ofText text := by
  cases h : ofText text with
  | error e =>
    rw [rewritten_of_error h]
    rfl
  | ok s =>
    rw [rewritten_of_ok h]
    change ofText (s.written l) = .ok s
    rw [s.ofText_written l, spelled_eq_iff.mpr (isRegular_of_ofText h)]

/-- From either of the texts that a record is written as, the record that it spells is read,
and that is the record itself exactly if its last change, if there was one, is an instant. What
is written of a text that has been read is read as the text was, is rewritten as itself, and is
the same for all texts that are read as the same. -/
theorem read_back_and_rewritten :
    (∀ s : Settings, ofText s.compactText = .ok s.spelled ∧ ofText s.prettyText = .ok s.spelled ∧
      (s.spelled = s ↔ s.IsRegular)) ∧
      ∀ l text, (rewritten l text >>= ofText) = ofText text ∧
        (rewritten l text >>= rewritten l) = rewritten l text ∧
        ∀ other, rewritten l other = rewritten l text ↔ ofText other = ofText text := by
  refine ⟨fun s => ⟨s.ofText_compactText, s.ofText_prettyText, spelled_eq_iff⟩, fun l text => ?_⟩
  refine ⟨rewritten_bind_ofText l text, ?_, fun other => ⟨fun h => ?_, fun h => ?_⟩⟩
  · calc (rewritten l text >>= rewritten l)
        = (rewritten l text >>= ofText) >>= fun s => pure (s.written l) :=
          (bind_assoc _ _ _).symm
      _ = rewritten l text := by
          rw [rewritten_bind_ofText]
          rfl
  · rw [← rewritten_bind_ofText l other, ← rewritten_bind_ofText l text, h]
  · unfold rewritten
    rw [h]

/-! ## Leap seconds within a minute -/

/-- A record whose last change was in a leap second within a minute is read back as one changed
a second later. -/
theorem not_read_back_within_minute :
    let s : Settings := { updatedAt := some .withinMinute }
    ofText s.compactText ≠ .ok s ∧ ofText s.prettyText ≠ .ok s := by
  intro s
  have hne : s.spelled ≠ s := by
    rw [ne_eq, spelled_eq_iff]
    intro h
    exact absurd (h _ rfl) (by decide)
  rw [s.ofText_compactText, s.ofText_prettyText]
  exact ⟨fun h => hne (Except.ok.inj h), fun h => hne (Except.ok.inj h)⟩

end Settings
end ScopedSettings
