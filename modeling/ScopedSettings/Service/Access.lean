/-
Reading and writing through the service, and the units of work around both.

A read looks the worker's entry up and asks the store only where there is
none; it never makes an entry. Entries are made by starting a unit of work
and removed by its end or by the worker's own committed write. A store that is
not ready is no reason to fail: reads then give the defaults, and units start
without an entry.
-/
import ScopedSettings.Service.Basic

namespace ScopedSettings.Course

def fetch : Course (Except SettingsError Settings) :=
  act Act.fetch

/-- The record fetched, or the defaults where the store is not ready. -/
def orDefault : Except SettingsError Settings → Except SettingsError Settings
  | .ok s => .ok s
  | .error e => if e.isNotReady then .ok .default else .error e

/-- Asks the store for the record, with the defaults where it is not ready. -/
def fetchOrDefault : Course (Except SettingsError Settings) := do
  return orDefault (← fetch)

def lookUp (w : WorkerId) : Course (Option Settings) :=
  act (Act.lookUp w)

/-- The settings as a worker sees them; a bypassing read asks the store in any case
and leaves the cache alone. -/
def get (w : WorkerId) (bypass : Bool) : Course (Except SettingsError Settings) := do
  if bypass then fetchOrDefault
  else
    match ← lookUp w with
    | some s => return .ok s
    | none => fetchOrDefault

/-- Tells listeners and observers of a committed record. -/
def publish (writer : WorkerId) (s : Settings) (now : Instant) : Course Unit := do
  let e : WriteEvent :=
    { writer, version := s.version, settings := s, writtenAt := s.updatedAt.getD now.toTimestamp }
  let _ : Unit ← act (Act.notify e)
  act (Act.announce e)

def commit (u : Update) (now : Instant) : Course (Except SettingsError Settings) :=
  act (Act.commit u now)

/-- Writes an update on behalf of a worker: it is checked, committed, and only then
published. -/
def write (writer : WorkerId) (u : Update) (now : Instant) :
    Course (Except SettingsError Settings) := do
  match u.validate with
  | .error e => return .error e
  | .ok () =>
    match ← commit u now with
    | .error e => return .error e
    | .ok s =>
      publish writer s now
      return .ok s

def forget (w : WorkerId) : Course Unit := do
  let _ : Bool ← act (Act.forget w)
  return ()

/-- Starts a unit of work: whatever entry was left goes, and the record becomes the
worker's entry if it can be had. -/
def start (w : WorkerId) : Course Unit := do
  forget w
  match ← fetch with
  | .ok s => act (Act.keep w s)
  | .error _ => return ()

/-- Ends a unit of work, however it went. -/
def finish (w : WorkerId) : Course Unit :=
  forget w

/-- Runs a course as one unit of work; if it is dropped, the unit is abandoned. -/
def unit (w : WorkerId) (body : Course α) : Course α := do
  start w
  let a ← holding w body
  finish w
  return a

end ScopedSettings.Course
