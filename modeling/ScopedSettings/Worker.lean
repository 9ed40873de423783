/-
Workers: whatever runs one unit of work at a time. Their identifiers are the
keys of the scope cache; they are handed out in order and never reused. Their numbers
have no bound: one after another from one, no run hands out as many as sixty-four bits hold.
-/
import ScopedSettings.Json.Reader
import ScopedSettings.Json.Value
import ScopedSettings.Settings.Error

namespace ScopedSettings

/-- The identifier of a worker. -/
structure WorkerId where
  number : Nat
  deriving DecidableEq, Repr

namespace WorkerId

def next (w : WorkerId) : WorkerId :=
  ⟨w.number + 1⟩

/-- The identifier as messages show it. -/
def text (w : WorkerId) : String :=
  "worker-" ++ toString w.number

/-- The identifier as diagnostics show it. -/
def inspect (w : WorkerId) : String :=
  "WorkerId(" ++ toString w.number ++ ")"

def toValue (w : WorkerId) : Json.Value :=
  .natural w.number

def reader : Json.Reader WorkerId :=
  (Json.readNatural UInt64.size "u64").map WorkerId.mk

def ofText (s : String) : Except SettingsError WorkerId :=
  match reader.whole (Json.tokens s) with
  | .ok w => .ok w
  | .error p => .error (.serialization p.message)

/-- The identifiers in ascending order, each once. -/
def sortDistinct (ws : List WorkerId) : List WorkerId :=
  (ws.eraseDups).mergeSort fun v w => v.number ≤ w.number

end WorkerId
end ScopedSettings
