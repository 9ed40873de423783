/-
What stands where a store keeps its record, and what a commit makes of it.

A commit that succeeds has replaced the record, or the defaults where there was none,
by the updated one; one that fails leaves what was there, unless its error says that the
record has been replaced all the same. So much holds where the store's surroundings are
as a store expects them (`Conditions`). Where they are not, more can happen, but not
anything: a record that is lost is one that cannot be read, of which no update makes a
record again (`Conditions.Left`).
-/
import ScopedSettings.Settings.Basic
import ScopedSettings.Settings.Error

namespace ScopedSettings

/-- What stands where a store keeps its record. -/
inductive Stored
  | nothing
  | unreadable
  | record (s : Settings)

namespace Stored

/-- What a load has been answered with tells what stands there. -/
def ofAnswer : Except SettingsError Settings → Stored
  | .ok s => .record s
  | .error .recordNotFound => .nothing
  | .error _ => .unreadable

def ofRecord : Option Settings → Stored
  | some s => .record s
  | none => .nothing

def record? : Stored → Option Settings
  | .record s => some s
  | .nothing | .unreadable => none

/-- The record that an update is applied to: the defaults where there is none. -/
def base? : Stored → Option Settings
  | .record s => some s
  | .nothing => some .default
  | .unreadable => none

@[simp] theorem record?_ofRecord (r : Option Settings) : (ofRecord r).record? = r := by
  cases r <;> rfl

theorem record?_ofAnswer (r : Except SettingsError Settings) :
    (ofAnswer r).record? = r.toOption := by
  cases r with
  | ok s => rfl
  | error e => cases e <;> rfl

theorem record?_eq_some_iff {st : Stored} {s : Settings} :
    st.record? = some s ↔ st = .record s := by
  cases st <;> simp [record?]

theorem base?_eq_some {st : Stored} {base : Settings} (h : st.base? = some base) :
    base = st.record?.getD .default := by
  cases st <;> simp_all [base?, record?]

/-- Does a record not follow another with its version brought back to zero, past what
sixty-four bits hold? -/
def CountsUp : Stored → Stored → Prop
  | .record a, .record b => a ≠ b → b.version ≠ 0
  | .nothing, _ | .unreadable, _ | .record _, .nothing | .record _, .unreadable => True

instance : (before after : Stored) → Decidable (before.CountsUp after)
  | .record a, .record b => inferInstanceAs (Decidable (a ≠ b → b.version ≠ 0))
  | .nothing, _ | .unreadable, _ | .record _, .nothing | .record _, .unreadable =>
    inferInstanceAs (Decidable True)

end Stored

/-- What is known of a store's surroundings, and what its errors say. -/
structure Conditions where
  /-- Which errors of a commit say that the record has been replaced all the same? -/
  replaced : SettingsError → Bool
  /-- Nothing else comes to stand where the record is kept. -/
  steady : Prop
  /-- What is written for a record that is to come does no harm to the one that is there, and
  what has been written can be read. -/
  fit : Prop
  /-- What has been written can be flushed. -/
  flushes : Prop

namespace Conditions

/-- Do conditions hold wherever others do? -/
structure Meets (d c : Conditions) : Prop where
  replaced_eq : d.replaced = c.replaced
  steady : c.steady → d.steady
  fit : c.fit → d.fit
  flushes : c.flushes → d.flushes

theorem Meets.refl (c : Conditions) : c.Meets c :=
  ⟨rfl, id, id, id⟩

theorem Meets.trans {c d e : Conditions} (h : e.Meets d) (h' : d.Meets c) : e.Meets c where
  replaced_eq := h.replaced_eq.trans h'.replaced_eq
  steady := h.steady ∘ h'.steady
  fit := h.fit ∘ h'.fit
  flushes := h.flushes ∘ h'.flushes

/-- What stands where a record has been put: the record, or what cannot be read. -/
inductive Holds (c : Conditions) (s : Settings) : Stored → Prop
  | record : Holds c s (.record s)
  | unreadable (h : ¬c.fit) : Holds c s .unreadable

/-- What a commit leaves that has failed, if its error does not say that it has replaced the
record. -/
inductive Left (c : Conditions) (u : Update) (now : Instant) : Stored → Stored → Prop
  | same {st : Stored} : Left c u now st st
  | obstructed : Left c u now .nothing .unreadable
  | uncovered {st : Stored} (h : ¬c.steady) : Left c u now .nothing st
  | cut {s : Settings} (h : ¬c.fit) : Left c u now (.record s) .unreadable
  | written {s : Settings} (hfit : ¬c.fit) (hflushes : ¬c.flushes) :
    Left c u now (.record s) (.record (u.apply s now))

/-- What a commit leaves, by its answer. -/
inductive Commits (c : Conditions) (u : Update) (now : Instant) (before after : Stored) :
    Except SettingsError Settings → Prop
  | done {base : Settings} (hbase : before.base? = some base)
    (hafter : c.Holds (u.apply base now) after) :
    Commits c u now before after (.ok (u.apply base now))
  | unflushed {base : Settings} {e : SettingsError} (he : c.replaced e = true)
    (hflushes : ¬c.flushes) (hbase : before.base? = some base)
    (hafter : c.Holds (u.apply base now) after) : Commits c u now before after (.error e)
  | failed {e : SettingsError} (he : c.replaced e = false) (hafter : c.Left u now before after) :
    Commits c u now before after (.error e)

variable {c d : Conditions} {u : Update} {now : Instant} {before after : Stored}
  {answer : Except SettingsError Settings} {s : Settings}

theorem Holds.of_fit (hfit : c.fit → d.fit) (h : d.Holds s after) : c.Holds s after := by
  cases h with
  | record => exact .record
  | unreadable h => exact .unreadable fun hc => h (hfit hc)

theorem Left.of_meets (hd : d.Meets c) (h : d.Left u now before after) :
    c.Left u now before after := by
  cases h with
  | same => exact .same
  | obstructed => exact .obstructed
  | uncovered h => exact .uncovered fun hc => h (hd.steady hc)
  | cut h => exact .cut fun hc => h (hd.fit hc)
  | written hfit hflushes =>
    exact .written (fun hc => hfit (hd.fit hc)) fun hc => hflushes (hd.flushes hc)

/-- What is known of commits under some conditions is known of them where those hold. -/
theorem Commits.of_meets (hd : d.Meets c) (h : d.Commits u now before after answer) :
    c.Commits u now before after answer := by
  cases h with
  | done hbase hafter => exact .done hbase (hafter.of_fit hd.fit)
  | unflushed he hflushes hbase hafter =>
    rw [hd.replaced_eq] at he
    exact .unflushed he (fun hc => hflushes (hd.flushes hc)) hbase (hafter.of_fit hd.fit)
  | failed he hafter =>
    rw [hd.replaced_eq] at he
    exact .failed he (hafter.of_meets hd)

theorem Holds.record?_eq (hfit : c.fit) (h : c.Holds s after) : after.record? = some s := by
  cases h with
  | record => rfl
  | unreadable h => exact absurd hfit h

/-- Where the conditions hold, the record is the one that was there. -/
theorem Left.record?_eq (hsteady : c.steady) (hfit : c.fit) (h : c.Left u now before after) :
    after.record? = before.record? := by
  cases h with
  | same | obstructed => rfl
  | uncovered h => exact absurd hsteady h
  | cut h | written h _ => exact absurd hfit h

/-- What a commit answers with is the record updated, or the defaults where there was none. -/
theorem Commits.ok_eq (h : c.Commits u now before after (.ok s)) :
    s = u.apply (before.record?.getD .default) now := by
  cases h with
  | done hbase _ => rw [Stored.base?_eq_some hbase]

theorem Commits.record?_eq (hfit : c.fit) (h : c.Commits u now before after (.ok s)) :
    after.record? = some s := by
  cases h with
  | done _ hafter => exact hafter.record?_eq hfit

/-- A record that a commit leaves was there before, or is that. -/
theorem Commits.record?_cases (hsteady : c.steady) (h : c.Commits u now before after answer)
    (hs : after.record? = some s) :
    before.record? = some s ∨ s = u.apply (before.record?.getD .default) now := by
  have hput {base : Settings} (hbase : before.base? = some base)
      (hafter : c.Holds (u.apply base now) after) :
      s = u.apply (before.record?.getD .default) now := by
    rw [← Stored.base?_eq_some hbase]
    cases hafter with
    | record => exact (Option.some.inj hs).symm
    | unreadable _ => cases hs
  cases h with
  | done hbase hafter => exact .inr (hput hbase hafter)
  | unflushed _ _ hbase hafter => exact .inr (hput hbase hafter)
  | failed _ hafter =>
    cases hafter with
    | same => exact .inl hs
    | obstructed => cases hs
    | uncovered h => exact absurd hsteady h
    | cut _ => cases hs
    | written _ _ => exact .inr (Option.some.inj hs).symm

end Conditions
end ScopedSettings
