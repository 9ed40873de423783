/-
What plain values are read from, whatever the document.

A reader `Takes` the documents that spell a value, and no others. That a reader
refuses everything else is said of the single readers here, and kept by what is made of
them (`Reader.Takes.refine`, `Reader.Takes.nullable`).
-/
import ScopedSettings.Proofs.Json.Documents

namespace ScopedSettings.Json

variable {α β : Type}

/-- A reader takes the documents that spell a value, and no others. -/
def Reader.Takes (r : Reader α) (spells : Document → α → Prop) : Prop :=
  ∀ d rest x, r (d.tokens ++ rest) = .ok x ↔ ∃ a, spells d a ∧ x = (a, rest)

theorem readBool_takes : readBool.Takes fun d b => d = .bool b := by
  intro d rest x
  cases d with
  | bool b => simp [Document.tokens, readBool, eq_comm]
  | _ => simp [Document.tokens, readBool]

theorem readText_takes (expected : String) : (readText expected).Takes Document.SpellsText := by
  intro d rest x
  cases d with
  | text l =>
    have hdecode : readText expected ((Document.text l).tokens ++ rest) = .ok x ↔
        ∃ s, l.spelling.decode = .ok s ∧ x = (s, rest) := by
      simp only [Document.tokens, List.singleton_append, readText]
      cases l.spelling.decode with
      | error f => simp [fail]
      | ok s => simp [eq_comm]
    rw [hdecode]
    simp only [Literal.decode_eq_ok_iff, Document.SpellsText, Document.text.injEq, exists_eq_left']
  | _ => simp [Document.tokens, readText, Document.SpellsText]

theorem readNatural_takes {bound : Nat} (hb : bound ≤ UInt64.size) (expected : String) :
    (readNatural bound expected).Takes fun d n => n < bound ∧ d = .number (.ofNat n) := by
  intro d rest x
  cases d with
  | number f =>
    rw [Document.tokens, List.singleton_append, readNatural_figure_eq_ok_iff hb]
    simp only [Document.number.injEq, and_assoc]
  | _ => simp [Document.tokens, readNatural]

theorem Reader.Takes.refine {r : Reader α} {spells : Document → α → Prop} (h : r.Takes spells)
    (f : α → Except Misfit β) :
    (r.refine f).Takes fun d b => ∃ a, spells d a ∧ f a = .ok b := by
  intro d rest x
  unfold Reader.refine
  have hr := h d rest
  cases hd : r (d.tokens ++ rest) with
  | error p =>
    rw [hd] at hr
    have hno : ∀ a, ¬spells d a := fun a ha => by simpa using (hr (a, rest)).mpr ⟨a, ha, rfl⟩
    simp [hno]
  | ok y =>
    rw [hd] at hr
    obtain ⟨a, ha, rfl⟩ := (hr y).mp rfl
    have honly : ∀ a', spells d a' → a' = a := fun a' ha' => by
      have := (hr (a', rest)).mpr ⟨a', ha', rfl⟩
      exact (congrArg Prod.fst (Except.ok.inj this)).symm
    dsimp only
    cases hf : f a with
    | error m =>
      simp only [refuse, reduceCtorEq, false_iff, not_exists, not_and]
      rintro b ⟨a', ha', hb⟩
      rw [honly a' ha', hf] at hb
      cases hb
    | ok b =>
      constructor
      · intro hx
        exact ⟨b, ⟨a, ha, hf⟩, (Except.ok.inj hx).symm⟩
      · rintro ⟨b', ⟨a', ha', hb'⟩, rfl⟩
        rw [honly a' ha', hf] at hb'
        rw [Except.ok.inj hb']

theorem Reader.Takes.map {r : Reader α} {spells : Document → α → Prop} (h : r.Takes spells)
    (f : α → β) : (r.map f).Takes fun d b => ∃ a, spells d a ∧ f a = b := by
  intro d rest x
  simp only [Reader.map, h.refine _ d rest x, Except.ok.injEq]

/-- A reader of values that may be null takes null as well. -/
theorem Reader.Takes.nullable {r : Reader α} {spells : Document → α → Prop} (h : r.Takes spells)
    (hnull : ∀ a, ¬spells .null a) : r.nullable.Takes (Document.OrNull spells) := by
  intro d rest x
  have hsome : (∃ a, Document.OrNull spells d a ∧ x = (a, rest)) ↔
      d = .null ∧ x = (none, rest) ∨ ∃ a, spells d a ∧ x = (some a, rest) := by
    constructor
    · rintro ⟨a, ha, rfl⟩
      cases a with
      | none => exact .inl ⟨ha, rfl⟩
      | some a => exact .inr ⟨a, ha, rfl⟩
    · rintro (⟨hd, rfl⟩ | ⟨a, ha, rfl⟩)
      · exact ⟨none, hd, rfl⟩
      · exact ⟨some a, ha, rfl⟩
  rw [hsome]
  by_cases hd : d = .null
  · subst hd
    simp [Document.tokens, Reader.nullable, hnull, eq_comm]
  · have hmap := h.map some d rest x
    have hne : r.nullable (d.tokens ++ rest) = r.map some (d.tokens ++ rest) := by
      cases d <;> first | exact absurd rfl hd | rfl
    rw [hne, hmap]
    simp only [hd, false_and, false_or]
    constructor
    · rintro ⟨_, ⟨a, ha, rfl⟩, hx⟩
      exact ⟨a, ha, hx⟩
    · rintro ⟨a, ha, hx⟩
      exact ⟨some a, ⟨a, ha, rfl⟩, hx⟩

end ScopedSettings.Json
