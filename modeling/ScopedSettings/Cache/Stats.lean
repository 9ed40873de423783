/-
The counters of a scope cache and the rates computed from them.

The counters are natural numbers. Those a cache gives stay below 2 ^ 64 (`ScopeCache`), and a
text that spells a larger one is not read. Where the counters of a text that is read add up to
more, the rates are those of the sum.
-/
import ScopedSettings.Binary64.Decimal
import ScopedSettings.Json.Record
import ScopedSettings.Json.Value
import ScopedSettings.Settings.Error

namespace ScopedSettings

/-- A snapshot of a scope cache's activity. -/
structure CacheStats where
  hits : Nat := 0
  misses : Nat := 0
  loads : Nat := 0
  clears : Nat := 0
  entries : Nat := 0
  deriving DecidableEq, Repr

namespace CacheStats

/-- One hundred, as a double. -/
def hundred : Binary64 :=
  (Binary64.ofNat 100).getD .zero

/-- Reads that found an entry, in percent of all; zero if there were none. -/
def hitRate (s : CacheStats) : Binary64 :=
  if s.hits + s.misses == 0 then .zero
  else
    (do
      let hits ← Binary64.ofNat s.hits
      let total ← Binary64.ofNat (s.hits + s.misses)
      let share ← hits.div total
      share.mul hundred).getD .zero

/-- Reads that found no entry, in percent: what the hit rate leaves of one hundred. -/
def missRate (s : CacheStats) : Binary64 :=
  (hundred.sub s.hitRate).getD .zero

/-- The counters with the hit rate to two places. -/
def text (s : CacheStats) : String :=
  "CacheStats \x7b hits: " ++ toString s.hits ++ ", misses: " ++ toString s.misses ++
    ", hit_rate: " ++ s.hitRate.fixed 2 ++ "%, loads: " ++ toString s.loads ++
    ", clears: " ++ toString s.clears ++ ", entries: " ++ toString s.entries ++ " \x7d"

/-- The counters as diagnostics show them. -/
def inspect (s : CacheStats) : String :=
  "CacheStats \x7b hits: " ++ toString s.hits ++ ", misses: " ++ toString s.misses ++
    ", loads: " ++ toString s.loads ++ ", clears: " ++ toString s.clears ++
    ", entries: " ++ toString s.entries ++ " \x7d"

def toValue (s : CacheStats) : Json.Value :=
  .ofMembers [("hits", .natural s.hits), ("misses", .natural s.misses),
    ("loads", .natural s.loads), ("clears", .natural s.clears), ("entries", .natural s.entries)]

/-- What has been read of the counters. -/
structure Draft where
  hits : Option Nat := none
  misses : Option Nat := none
  loads : Option Nat := none
  clears : Option Nat := none
  entries : Option Nat := none

/-- The counters of a draft; the first missing one is reported. -/
def Draft.stats (d : Draft) : Except Json.Misfit CacheStats := do
  let hits ← Json.required "hits" d.hits
  let misses ← Json.required "misses" d.misses
  let loads ← Json.required "loads" d.loads
  let clears ← Json.required "clears" d.clears
  let entries ← Json.required "entries" d.entries
  return { hits, misses, loads, clears, entries }

open Json in
def shape : RecordShape Draft CacheStats where
  title := "struct CacheStats"
  lengthTitle := "struct CacheStats with 5 elements"
  empty := {}
  strict := false
  fields := [
    { name := "hits", isGiven := (·.hits.isSome), optional := false
      read := fun d => (readNatural UInt64.size "u64").map fun v => { d with hits := some v } },
    { name := "misses", isGiven := (·.misses.isSome), optional := false
      read := fun d => (readNatural UInt64.size "u64").map fun v => { d with misses := some v } },
    { name := "loads", isGiven := (·.loads.isSome), optional := false
      read := fun d => (readNatural UInt64.size "u64").map fun v => { d with loads := some v } },
    { name := "clears", isGiven := (·.clears.isSome), optional := false
      read := fun d => (readNatural UInt64.size "u64").map fun v => { d with clears := some v } },
    { name := "entries", isGiven := (·.entries.isSome), optional := false
      read := fun d =>
        (readNatural UInt64.size "usize").map fun v => { d with entries := some v } }]
  record := Draft.stats

def reader : Json.Reader CacheStats :=
  shape.read

def ofText (s : String) : Except SettingsError CacheStats :=
  match reader.whole (Json.tokens s) with
  | .ok stats => .ok stats
  | .error p => .error (.serialization p.message)

end CacheStats
end ScopedSettings
