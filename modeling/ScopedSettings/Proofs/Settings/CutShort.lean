/-
A settings record whose text is cut short is not read.

The readers of its fields leave tokens behind that they have been given, and what a
record is written as holds plain values only; so `RecordShape.whole_cutShort` applies.
-/
import ScopedSettings.Proofs.Json.CutShort
import ScopedSettings.Settings.Json

namespace ScopedSettings

open Json

theorem readUInt32_leaves : readUInt32.Leaves :=
  (readNatural_leaves _ _).map _

theorem readUInt64_leaves : readUInt64.Leaves :=
  (readNatural_leaves _ _).map _

theorem readInstant_leaves : readInstant.Leaves :=
  (readText_leaves _).refine _

namespace Settings

theorem shape_leaves : ∀ f ∈ shape.fields, ∀ d, (f.read d).Leaves := by
  intro f hf d
  simp only [shape, List.mem_cons, List.not_mem_nil, or_false] at hf
  rcases hf with rfl | rfl | rfl | rfl | rfl | rfl | rfl | rfl
  · exact readUInt32_leaves.map _
  iterate 4 exact readBool_leaves.map _
  · exact (readText_leaves _).map _
  · exact readUInt64_leaves.map _
  · exact readInstant_leaves.nullable.map _

/-- The members a record is written as. -/
theorem exists_members (s : Settings) :
    ∃ ms, (∀ m ∈ ms, m.2.IsPlain) ∧ s.prettyText = (Value.ofMembers ms).pretty := by
  refine ⟨_, ?_, rfl⟩
  intro m hm
  cases h : s.updatedAt <;>
    simp only [h, List.mem_append, List.mem_cons, List.not_mem_nil, or_false] at hm
  · rcases hm with rfl | rfl | rfl | rfl | rfl | rfl | rfl <;> trivial
  · rcases hm with (rfl | rfl | rfl | rfl | rfl | rfl | rfl) | rfl <;> trivial

/-- What is left of a record's text if it is cut short is no record. -/
theorem ofText_cutShort {s : Settings} {text : String} (h : text.toList <+: s.prettyText.toList)
    (hne : text ≠ s.prettyText) : ∃ reason, ofText text = .error (.serialization reason) := by
  obtain ⟨ms, hms, hs⟩ := s.exists_members
  rw [hs] at h hne
  obtain ⟨p, hp⟩ := RecordShape.whole_cutShort shape_leaves hms h hne
  refine ⟨p.message, ?_⟩
  unfold ofText reader
  rw [hp]

theorem prettyText_ne_empty (s : Settings) : s.prettyText ≠ "" := by
  intro h
  have hlist := congrArg String.toList h
  unfold prettyText toValue Value.pretty Value.ofMembers at hlist
  rw [String.toList_ofList] at hlist
  cases hlist

end Settings
end ScopedSettings
