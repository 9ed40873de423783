/-
Valid records, and the updates that keep them valid.

An update is checked without a look at the record it will be applied to, and for its
time zone the check asks whether anything is left by trimming while the record gets what
is left. Still the check accepts what it should: just those updates that set something and
make a valid record of every valid one (`Update.validate_eq_ok_iff`). What is
left by trimming has no blanks at its ends, so trimming it again changes nothing
(`Text.trimmed_trimmed`).
-/
import Mathlib.Data.List.DropRight
import ScopedSettings.Proofs.Instant.RoundTrip
import ScopedSettings.Settings.Basic

namespace ScopedSettings

/-! ## Trimmed texts -/

namespace Text

theorem trimStart_eq_self_iff {cs : List Char} :
    trimStart cs = cs ↔ ∀ c ∈ cs.head?, isBlank c = false := by
  cases cs with
  | nil => simp [trimStart]
  | cons c cs =>
    cases hc : isBlank c with
    | false => simp [trimStart_of_not_blank hc, hc]
    | true =>
      have hlength : (trimStart cs).length ≤ cs.length := (List.dropWhile_suffix isBlank).length_le
      have hne : trimStart cs ≠ c :: cs := by
        intro h
        rw [h, List.length_cons] at hlength
        omega
      simp [trimStart_cons hc, hne, hc]

theorem trimEnd_eq_self_iff {cs : List Char} :
    trimEnd cs = cs ↔ ∀ c ∈ cs.getLast?, isBlank c = false := by
  unfold trimEnd
  rw [List.reverse_eq_iff, trimStart_eq_self_iff, List.head?_reverse]

theorem trimStart_trimStart (cs : List Char) : trimStart (trimStart cs) = trimStart cs :=
  List.dropWhile_idempotent isBlank cs

theorem trimEnd_trimEnd (cs : List Char) : trimEnd (trimEnd cs) = trimEnd cs :=
  List.rdropWhile_idempotent isBlank cs

theorem trimEnd_prefix (cs : List Char) : trimEnd cs <+: cs :=
  List.rdropWhile_prefix isBlank cs

/-- Trimming at the end leaves the start as it is. -/
theorem trimStart_trim (cs : List Char) : trimStart (trim cs) = trim cs := by
  have hstart := trimStart_eq_self_iff.mp (trimStart_trimStart cs)
  refine trimStart_eq_self_iff.mpr fun c hc => hstart c ?_
  obtain ⟨rest, hrest⟩ := trimEnd_prefix (trimStart cs)
  rw [← hrest]
  exact List.mem_head?_append_of_mem_head? hc

/-- The characters that trimming leaves alone are those without a blank at either end. -/
theorem trim_eq_self_iff {cs : List Char} :
    trim cs = cs ↔
      (∀ c ∈ cs.head?, isBlank c = false) ∧ ∀ c ∈ cs.getLast?, isBlank c = false := by
  rw [← trimStart_eq_self_iff, ← trimEnd_eq_self_iff]
  constructor
  · intro h
    have hstart : trimStart cs = cs := by
      have hself := trimStart_trim cs
      rw [h] at hself
      exact hself
    refine ⟨hstart, ?_⟩
    unfold trim at h
    rw [hstart] at h
    exact h
  · rintro ⟨hstart, hend⟩
    unfold trim
    rw [hstart, hend]

theorem trimmed_trimmed (z : String) : trimmed (trimmed z) = trimmed z := by
  unfold trimmed
  rw [String.toList_ofList]
  refine congrArg String.ofList ?_
  change trimEnd (trimStart (trim z.toList)) = _
  rw [trimStart_trim]
  exact trimEnd_trimEnd _

theorem trimmed_eq_self_iff {z : String} :
    trimmed z = z ↔
      (∀ c ∈ z.toList.head?, isBlank c = false) ∧ ∀ c ∈ z.toList.getLast?, isBlank c = false := by
  rw [← trim_eq_self_iff]
  unfold trimmed
  constructor
  · intro h
    have hlist := congrArg String.toList h
    rw [String.toList_ofList] at hlist
    exact hlist
  · intro h
    rw [h, String.ofList_toList]

theorem trim_eq_nil_iff {cs : List Char} : trim cs = [] ↔ cs.all isBlank = true := by
  unfold trim trimEnd
  rw [List.reverse_eq_nil_iff, trimStart_eq_nil_iff, List.all_reverse, ← trimStart_eq_nil_iff,
    trimStart_trimStart, trimStart_eq_nil_iff]

/-- Nothing is left just of a text of blanks only. -/
theorem trimmed_eq_empty_iff {z : String} : trimmed z = "" ↔ isBlankText z = true := by
  unfold trimmed isBlankText
  rw [← trim_eq_nil_iff, ← String.toList_eq_nil_iff, String.toList_ofList]

end Text

/-! ## Valid records -/

namespace Settings

theorem isValid_iff {s : Settings} :
    s.IsValid ↔
      1 ≤ s.maxUploadMb ∧ s.maxUploadMb ≤ 10240 ∧ s.timeZone ≠ "" ∧
        (∀ c ∈ s.timeZone.toList.head?, Text.isBlank c = false) ∧
        ∀ c ∈ s.timeZone.toList.getLast?, Text.isBlank c = false := by
  constructor
  · rintro ⟨⟨hleast, hgreatest⟩, hnonempty, htrimmed⟩
    exact ⟨hleast, hgreatest, hnonempty, Text.trimmed_eq_self_iff.mp htrimmed⟩
  · rintro ⟨hleast, hgreatest, hnonempty, htrimmed⟩
    exact ⟨⟨hleast, hgreatest⟩, hnonempty, Text.trimmed_eq_self_iff.mpr htrimmed⟩

theorem isValid_default : default.IsValid where
  uploadMb := by decide
  timeZone_nonempty := by decide
  timeZone_trimmed := by decide

end Settings

/-! ## Accepted updates -/

namespace Update

variable {u : Update}

theorem timeZoneFault?_eq_none_iff :
    fault?.timeZoneFault? u = none ↔ ∀ z ∈ u.timeZone, Text.isBlankText z = false := by
  unfold fault?.timeZoneFault?
  cases u.timeZone with
  | none => simp
  | some z => cases Text.isBlankText z <;> simp

theorem fault?_eq_none_iff :
    u.fault? = none ↔ u.isEmpty = false ∧ (∀ n ∈ u.maxUploadMb, Settings.AcceptsUploadMb n) ∧
      ∀ z ∈ u.timeZone, Text.isBlankText z = false := by
  rw [← timeZoneFault?_eq_none_iff]
  unfold fault?
  cases u.isEmpty with
  | true => simp
  | false =>
    cases u.maxUploadMb with
    | none => simp
    | some n => by_cases hn : Settings.AcceptsUploadMb n <;> simp [hn]

theorem validate_eq_ok_iff_fault? : u.validate = .ok () ↔ u.fault? = none := by
  unfold validate
  cases u.fault? <;> simp

/-- An accepted update makes a valid record of a valid one. -/
theorem isValid_apply (hu : u.validate = .ok ()) {base : Settings} (hbase : base.IsValid)
    (now : Instant) : (u.apply base now).IsValid := by
  obtain ⟨-, huploadMb, htimeZone⟩ := fault?_eq_none_iff.mp (validate_eq_ok_iff_fault?.mp hu)
  have hzone : (u.apply base now).timeZone ≠ "" ∧
      Text.trimmed (u.apply base now).timeZone = (u.apply base now).timeZone := by
    change (u.timeZone.map Text.trimmed).getD base.timeZone ≠ "" ∧
      Text.trimmed ((u.timeZone.map Text.trimmed).getD base.timeZone) =
        (u.timeZone.map Text.trimmed).getD base.timeZone
    cases hz : u.timeZone with
    | none => exact ⟨hbase.timeZone_nonempty, hbase.timeZone_trimmed⟩
    | some z =>
      have hblank := htimeZone z hz
      refine ⟨fun hempty => ?_, Text.trimmed_trimmed z⟩
      rw [Text.trimmed_eq_empty_iff.mp hempty] at hblank
      cases hblank
  refine ⟨?_, hzone.1, hzone.2⟩
  change Settings.AcceptsUploadMb (u.maxUploadMb.getD base.maxUploadMb)
  cases hn : u.maxUploadMb with
  | none => exact hbase.uploadMb
  | some n => exact huploadMb n hn

/-- The updates that are accepted are those that set something and make a valid record of
every valid one. -/
theorem validate_eq_ok_iff :
    u.validate = .ok () ↔
      u.isEmpty = false ∧ ∀ base now, base.IsValid → (u.apply base now).IsValid := by
  constructor
  · intro hu
    exact ⟨(fault?_eq_none_iff.mp (validate_eq_ok_iff_fault?.mp hu)).1,
      fun _ now h => isValid_apply hu h now⟩
  · rintro ⟨hsets, hkeeps⟩
    have hvalid := hkeeps .default .epoch Settings.isValid_default
    refine validate_eq_ok_iff_fault?.mpr (fault?_eq_none_iff.mpr ⟨hsets, ?_, ?_⟩)
    · intro n hn
      have huploadMb : Settings.AcceptsUploadMb (u.maxUploadMb.getD _) := hvalid.uploadMb
      rw [hn] at huploadMb
      exact huploadMb
    · intro z hz
      have hnonempty : (u.timeZone.map Text.trimmed).getD _ ≠ "" := hvalid.timeZone_nonempty
      rw [hz] at hnonempty
      cases hblank : Text.isBlankText z with
      | false => rfl
      | true => exact absurd (Text.trimmed_eq_empty_iff.mpr hblank) hnonempty

end Update
end ScopedSettings
