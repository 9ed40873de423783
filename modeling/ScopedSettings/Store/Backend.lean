/-
Backends: where the settings record is kept.

A backend answers a load or a commit, at once, after a delay, or never. It is
the only part of the service that may be slow; how long a caller waits is the
caller's business.
-/
import ScopedSettings.Config.Duration
import ScopedSettings.Settings.Basic

namespace ScopedSettings

/-- The answer of a backend, and how long it takes to come. -/
inductive Reply
  | never
  | after (delay : Duration) (answer : Except SettingsError Settings)

/-- A reply without delay. -/
def Reply.now (answer : Except SettingsError Settings) : Reply :=
  .after ⟨0⟩ answer

/-- A place that keeps the settings record. -/
class Backend (β : Type) where
  /-- The backend's name in messages. -/
  name : β → String
  /-- Reads the record. -/
  load : β → β × Reply
  /-- Applies an update to the record, changed at the given instant. -/
  commit : β → Update → Instant → β × Reply

end ScopedSettings
