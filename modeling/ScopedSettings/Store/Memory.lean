/-
The record in memory, for tests and for services that need not keep it. It can
be switched off, to try what an unreachable store does, and counts its loads, which no run
has more of than sixty-four bits can count.
-/
import ScopedSettings.Store.Backend

namespace ScopedSettings

/-- A record kept in memory. -/
structure MemoryStore where
  record : Option Settings := none
  available : Bool := true
  /-- How often the record has been asked for. -/
  loads : Nat := 0

namespace MemoryStore

/-- The error of a store that is switched off. -/
def offline : SettingsError :=
  .storeUnavailable "memory backend is offline"

/-- The record, or why there is none to be had. -/
def answer (m : MemoryStore) : Except SettingsError Settings :=
  if m.available then
    match m.record with
    | some s => .ok s
    | none => .error .recordNotFound
  else .error offline

/-- Reads the record; every attempt counts. -/
def load (m : MemoryStore) : MemoryStore × Reply :=
  ({ m with loads := m.loads + 1 }, .now m.answer)

/-- Applies an update to the record, or to the defaults while there is none. -/
def commit (m : MemoryStore) (u : Update) (now : Instant) : MemoryStore × Reply :=
  if m.available then
    let next := u.apply (m.record.getD .default) now
    ({ m with record := some next }, .now (.ok next))
  else (m, .now (.error offline))

instance : Backend MemoryStore where
  name _ := "memory"
  load := load
  commit := commit

end MemoryStore
end ScopedSettings
